import RpcWire.Proofs.Accepts.Message

namespace RpcWire

/-! # The faults of a reader

Which faults can come up while a message is read. Each reading is taken
through its steps, and none of them raises a fault that belongs to a writer or
to a caller who makes a value. Data and credentials raise still fewer: they have
no numbers of a kind or a version that could be unknown. -/

/-- The bytes end before what they announce. -/
def Fault.LacksBytes : Fault → Prop
  | truncated .. | arrayTooLong .. | dataTooLong .. => True
  | _ => False

/-- What data can be the cause of, under a policy. Padding is judged by a strict
reader only. -/
def Fault.OfData (policy : Policy) : Fault → Prop
  | truncated .. | arrayTooLong .. | dataTooLong .. | tooManyGids .. | bodyTooLong .. |
    bodyLeftOver _ => True
  | dirtyPadding .. => policy.strictPadding = true
  | _ => False

/-- What bytes or a policy can be the cause of. -/
def Fault.OfReader : Fault → Prop
  | regionFull .. | messageTooLarge .. | countTooWide _ | reservedFlavor _ => False
  | _ => True

/-- What is said of a fault where only its report is at hand. -/
def Fault.Tells (fault : Fault) (code : FaultCode) (value : UInt32) : Prop :=
  fault.code = some code ∧ fault.value = value

theorem Fault.LacksBytes.code {fault : Fault} (lacks : fault.LacksBytes) :
    fault.code = some .truncated ∨ fault.code = some .invalidLength := by
  cases fault with
  | truncated needed offset remaining => exact .inl rfl
  | arrayTooLong count remaining => exact .inr rfl
  | dataTooLong length remaining => exact .inr rfl
  | _ => cases lacks

theorem Fault.LacksBytes.ofData (policy : Policy) {fault : Fault} (lacks : fault.LacksBytes) :
    fault.OfData policy := by
  cases fault with
  | truncated needed offset remaining => trivial
  | arrayTooLong count remaining => trivial
  | dataTooLong length remaining => trivial
  | _ => cases lacks

theorem Fault.OfData.ofReader {policy : Policy} {fault : Fault} (data : fault.OfData policy) :
    fault.OfReader := by
  cases fault with
  | regionFull needed capacity => exact data
  | messageTooLarge needed capacity => exact data
  | countTooWide count => exact data
  | reservedFlavor flavor => exact data
  | _ => trivial

theorem Fault.LacksBytes.ofReader {fault : Fault} (lacks : fault.LacksBytes) :
    fault.OfReader :=
  (lacks.ofData {}).ofReader

theorem Fault.OfReader.code_mem {fault : Fault} (readers : fault.OfReader) :
    fault.code ∈ [some .truncated, some .invalidLength, some .invalidDiscriminant,
      some .invalidAuthStatus, some .invalidRpcVersion, some .invalidAuthData,
      some .nonZeroPadding] := by
  cases fault with
  | regionFull _ _ => exact readers.elim
  | messageTooLarge _ _ => exact readers.elim
  | countTooWide _ => exact readers.elim
  | reservedFlavor _ => exact readers.elim
  | _ => simp [code]

/-- A reader's fault has a class, which is not that of a writer without room. -/
theorem Fault.OfReader.exists_code {fault : Fault} (readers : fault.OfReader) :
    ∃ code, fault.code = some code ∧ code ≠ .bufferTooSmall := by
  have known := readers.code_mem
  cases code : fault.code with
  | none => simp [code] at known
  | some found =>
      refine ⟨_, rfl, ?_⟩
      rintro rfl
      simp [code] at known

namespace Reading

variable {α β : Type} {kind : Fault → Prop}

/-- Whatever fault the reading raises, it is of this kind. -/
def Raises (reading : Reading α) (kind : Fault → Prop) : Prop :=
  ∀ cursor fault stopped, reading.run cursor = .error fault stopped → kind fault

/-! ## Steps -/

theorem raises_of_yields {reading : Reading α}
    (yields : ∀ cursor, ∃ value next, reading.run cursor = .ok value next) :
    reading.Raises kind := by
  intro cursor fault stopped failed
  rcases yields cursor with ⟨value, next, yielded⟩
  rw [yielded] at failed
  cases failed

theorem raises_pure (value : α) : Raises (pure value) kind :=
  raises_of_yields fun cursor => ⟨value, cursor, EStateM.run_pure value cursor⟩

theorem raises_get : Raises (get : Reading Cursor) kind :=
  raises_of_yields fun cursor => ⟨cursor, cursor, EStateM.run_get cursor⟩

theorem raises_take (count : Nat) : (take count).Raises kind :=
  raises_of_yields fun _ => ⟨_, _, rfl⟩

theorem raises_tail : tail.Raises kind :=
  raises_of_yields fun _ => ⟨_, _, run_tail⟩

theorem Raises.mono {other : Fault → Prop} {reading : Reading α} (raises : reading.Raises kind)
    (wider : ∀ {fault}, kind fault → other fault) : reading.Raises other :=
  fun cursor fault stopped failed => wider (raises cursor fault stopped failed)

theorem Raises.bind {first : Reading α} {second : α → Reading β}
    (front : first.Raises kind) (back : ∀ value, (second value).Raises kind) :
    (first >>= second).Raises kind := by
  intro cursor fault stopped failed
  rw [EStateM.run_bind] at failed
  cases ran : first.run cursor with
  | ok value next =>
      rw [ran] at failed
      exact back value next fault stopped failed
  | error raised next =>
      rw [ran] at failed
      cases failed
      exact front cursor fault stopped ran

theorem Raises.map {reading : Reading α} (raises : reading.Raises kind) (wrap : α → β) :
    Raises (do return wrap (← reading)) kind :=
  raises.bind fun _ => raises_pure _

theorem raises_ensure {condition : Prop} [Decidable condition] {fault : Fault}
    (isKind : kind fault) : (ensure condition fault).Raises kind := by
  intro cursor raised stopped failed
  rw [run_ensure] at failed
  by_cases holds : condition
  · rw [if_pos holds] at failed
    cases failed
  · rw [if_neg holds] at failed
    cases failed
    exact isKind

theorem raises_ofExcept {result : Except Fault α}
    (isKind : ∀ fault, result = .error fault → kind fault) :
    Raises (MonadExcept.ofExcept result) kind := by
  intro cursor fault stopped failed
  cases result with
  | ok value => cases failed
  | error raised =>
      cases failed
      exact isKind fault rfl

/-! ## Numbers and data -/

theorem raises_require (count : Nat) : (require count).Raises Fault.LacksBytes :=
  raises_get.bind fun _ => raises_ensure (by trivial)

theorem raises_word : word.Raises Fault.LacksBytes :=
  (raises_require 4).bind fun _ => (raises_take 4).map Word.ofBytes

theorem raises_double : double.Raises Fault.LacksBytes :=
  (raises_require 8).bind fun _ =>
  raises_word.bind fun high =>
  raises_word.map (Word.double high)

theorem raises_bool : bool.Raises Fault.OfReader :=
  (raises_word.mono Fault.LacksBytes.ofReader).bind fun _ =>
  (raises_ensure (by trivial)).bind fun _ =>
  raises_pure _

theorem raises_tag (Kind : Type) [Tag Kind] (unknown : UInt32 → Fault)
    (readers : ∀ value, (unknown value).OfReader) :
    (tag Kind unknown).Raises Fault.OfReader := by
  apply (raises_word.mono Fault.LacksBytes.ofReader).bind
  intro value
  apply raises_ofExcept
  intro fault failed
  rw [Tag.ofWord] at failed
  cases known : (Tag.ofWord? value : Option Kind) with
  | some kind =>
      rw [known] at failed
      cases failed
  | none =>
      rw [known] at failed
      cases failed
      exact readers value

theorem raises_padding (policy : Policy) (length : Nat) :
    (padding policy length).Raises (Fault.OfData policy) := by
  have required := (raises_require (padLength length)).mono (Fault.LacksBytes.ofData policy)
  refine required.bind fun _ => raises_get.bind fun cursor => ?_
  cases strict : policy.strictPadding with
  | false => exact raises_of_yields fun _ => ⟨_, _, rfl⟩
  | true =>
      rw [if_pos rfl]
      cases (cursor.next (padLength length)).firstNonZero with
      | none => exact raises_of_yields fun _ => ⟨_, _, rfl⟩
      | some found =>
          intro _ fault _ failed
          cases failed
          exact strict

theorem raises_counted (policy : Policy) : (counted policy).Raises (Fault.OfData policy) :=
  (raises_word.mono (Fault.LacksBytes.ofData policy)).bind fun length =>
  raises_get.bind fun _ =>
  (raises_ensure (by trivial)).bind fun _ =>
  (raises_take length.toNat).bind fun _ =>
  (raises_padding policy length.toNat).bind fun _ =>
  raises_pure _

theorem raises_fixed (policy : Policy) (length : Nat) :
    (fixed policy length).Raises (Fault.OfData policy) :=
  ((raises_require length).mono (Fault.LacksBytes.ofData policy)).bind fun _ =>
  ((raises_require _).mono (Fault.LacksBytes.ofData policy)).bind fun _ =>
  (raises_take length).bind fun _ =>
  (raises_padding policy length).bind fun _ =>
  raises_pure _

theorem raises_checkCount (count minimum : Nat) :
    (checkCount count minimum).Raises Fault.LacksBytes :=
  raises_get.bind fun _ => raises_ensure (by trivial)

theorem raises_words : words.Raises Fault.LacksBytes :=
  raises_word.bind fun count =>
  (raises_checkCount count.toNat 4).bind fun _ =>
  (raises_take _).map Words.wire

/-! ## Arrays -/

section

variable {item : Nat → Reading α} (each : ∀ index, (item index).Raises Fault.OfReader)
include each

theorem raises_sequence (index count : Nat) :
    (sequence item index count).Raises Fault.OfReader := by
  induction count generalizing index with
  | zero => exact raises_pure []
  | succ count induction =>
      rw [sequence_succ]
      apply (each index).bind
      intro value
      exact (induction (index + 1)).map (value :: ·)

theorem raises_array (minimum : Nat) : (array minimum item).Raises Fault.OfReader := by
  rw [array_eq]
  exact (raises_word.mono Fault.LacksBytes.ofReader).bind fun count =>
    ((raises_checkCount count.toNat minimum).mono Fault.LacksBytes.ofReader).bind fun _ =>
    raises_sequence each 0 _

theorem raises_fixedArray (count minimum : Nat) :
    (fixedArray count minimum item).Raises Fault.OfReader := by
  rw [fixedArray_eq]
  exact ((raises_checkCount count minimum).mono Fault.LacksBytes.ofReader).bind fun _ =>
    raises_sequence each 0 _

end

end Reading

open Reading

/-! ## The values of a message -/

theorem UnixIdentity.raises_read (policy : Policy) :
    (read policy).Raises (Fault.OfData policy) := by
  have number : word.Raises (Fault.OfData policy) :=
    raises_word.mono (Fault.LacksBytes.ofData policy)
  exact number.bind fun _ =>
    (raises_counted policy).bind fun _ =>
    number.bind fun _ =>
    number.bind fun _ =>
    (raises_words.mono (Fault.LacksBytes.ofData policy)).bind fun _ =>
    (raises_ensure (by trivial)).bind fun _ =>
    raises_pure _

theorem Credential.ofData_of_identityOfBody {policy : Policy} {body : Bytes} {fault : Fault}
    (failed : identityOfBody policy body = .error fault) : fault.OfData policy := by
  rw [identityOfBody] at failed
  cases ran : (UnixIdentity.read policy).run (.ofBytes body) with
  | ok identity cursor =>
      rw [ran] at failed
      by_cases used : cursor.remaining = 0
      · simp only [if_pos used] at failed
        cases failed
      · simp only [if_neg used] at failed
        cases failed
        trivial
  | error raised stopped =>
      rw [ran] at failed
      cases failed
      exact UnixIdentity.raises_read policy _ _ _ ran

/-- No reserved flavor is left when a plain credential is made. -/
theorem Credential.ofData_of_ofBody {policy : Policy} {flavor : UInt32} {body : Bytes}
    {fault : Fault} (failed : ofBody policy flavor body = .error fault) :
    fault.OfData policy := by
  by_cases structured : flavor = 1
  · rw [structured, ofBody_one] at failed
    cases parsed : identityOfBody policy body with
    | ok identity =>
        rw [parsed] at failed
        cases failed
    | error raised =>
        rw [parsed] at failed
        cases failed
        exact ofData_of_identityOfBody parsed
  · rcases exists_ofBody_of_ne policy structured body with ⟨credential, made, _⟩
    rw [made] at failed
    cases failed

theorem Credential.raises_read (policy : Policy) :
    (read policy).Raises (Fault.OfData policy) :=
  (raises_word.mono (Fault.LacksBytes.ofData policy)).bind fun _ =>
  (raises_counted policy).bind fun _ =>
  (raises_ensure (by trivial)).bind fun _ =>
  raises_ofExcept fun _ => ofData_of_ofBody

theorem VersionRange.raises_read : read.Raises Fault.LacksBytes :=
  raises_word.bind fun _ =>
  raises_word.bind fun _ =>
  raises_pure _

theorem Outcome.raises_readArm (kind : Kind) : (readArm kind).Raises Fault.LacksBytes := by
  cases kind with
  | success => exact raises_tail.map success
  | programMismatch => exact VersionRange.raises_read.map programMismatch
  | programUnavailable => exact raises_pure _
  | procedureUnavailable => exact raises_pure _
  | garbageArguments => exact raises_pure _
  | systemError => exact raises_pure _

theorem Outcome.raises_read : read.Raises Fault.OfReader := by
  rw [read_eq]
  apply (raises_tag Kind .unknownAcceptStatus fun _ => trivial).bind
  intro kind
  exact (raises_readArm kind).mono Fault.LacksBytes.ofReader

theorem Rejection.raises_read : read.Raises Fault.OfReader := by
  rw [read_eq]
  apply (raises_tag Kind .unknownRejectStatus fun _ => trivial).bind
  intro kind
  cases kind with
  | rpcMismatch => exact (VersionRange.raises_read.mono Fault.LacksBytes.ofReader).map rpcMismatch
  | authError => exact (raises_tag AuthStatus .unknownAuthStatus fun _ => trivial).map authError

theorem Call.raises_read (policy : Policy) : (read policy).Raises Fault.OfReader := by
  have number : word.Raises Fault.OfReader := raises_word.mono Fault.LacksBytes.ofReader
  have credential := (Credential.raises_read policy).mono Fault.OfData.ofReader
  exact number.bind fun _ =>
    (raises_ensure (by trivial)).bind fun _ =>
    number.bind fun _ =>
    number.bind fun _ =>
    number.bind fun _ =>
    credential.bind fun _ =>
    credential.bind fun _ =>
    raises_tail.bind fun _ =>
    raises_pure _

theorem Reply.raises_read (policy : Policy) : (read policy).Raises Fault.OfReader := by
  rw [read_eq]
  apply (raises_tag Kind .unknownReplyStatus fun _ => trivial).bind
  intro kind
  cases kind with
  | accepted =>
      apply ((Credential.raises_read policy).mono Fault.OfData.ofReader).bind
      intro verifier
      exact Outcome.raises_read.map (accepted verifier)
  | denied => exact Rejection.raises_read.map denied

namespace Message

theorem raises_read (policy : Policy) : (read policy).Raises Fault.OfReader := by
  rw [read_eq]
  apply (raises_word.mono Fault.LacksBytes.ofReader).bind
  intro xid
  refine Raises.map ?_ fun body => ({ xid, body } : Message)
  apply (raises_tag Body.Kind .unknownMessageType fun _ => trivial).bind
  intro kind
  cases kind with
  | call => exact (Call.raises_read policy).map Body.call
  | reply => exact (Reply.raises_read policy).map Body.reply

theorem ofBytes_eq_error_iff {policy : Policy} {bytes : Bytes} {fault : Fault} :
    ofBytes policy bytes = .error fault ↔
      ∃ stopped, (read policy).run (.ofBytes bytes) = .error fault stopped := by
  rw [ofBytes]
  cases (read policy).run (.ofBytes bytes) <;> simp

theorem ofReader_of_ofBytes {policy : Policy} {bytes : Bytes} {fault : Fault}
    (failed : ofBytes policy bytes = .error fault) : fault.OfReader := by
  rcases ofBytes_eq_error_iff.mp failed with ⟨stopped, ran⟩
  exact raises_read policy _ _ _ ran

end Message

end RpcWire
