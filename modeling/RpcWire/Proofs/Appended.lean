import RpcWire.Proofs.Faults
import RpcWire.Proofs.RoundTrip

namespace RpcWire

/-! # Appended bytes

What a reader makes of some bytes when more are appended to them. A value that
has been read stays what it is. A fault stays as well, unless it was raised
because the bytes came to an end: only then is it worth waiting for more. -/

namespace Cursor

/-- A cursor at the same place as another, with more bytes behind. -/
structure Continues (longer cursor : Cursor) (more : Bytes) : Prop where
  offset : longer.offset = cursor.offset
  rest : longer.rest = cursor.rest ++ more

variable {cursor longer : Cursor} {more : Bytes}

theorem continues_ofBytes (bytes more : Bytes) :
    (ofBytes (bytes ++ more)).Continues (ofBytes bytes) more where
  offset := rfl
  rest := by rw [rest_ofBytes, rest_ofBytes]

namespace Continues

theorem remaining_le (continues : longer.Continues cursor more) :
    cursor.remaining ≤ longer.remaining := by
  have sum := remaining_of_rest continues.rest
  rw [length_rest] at sum
  omega

theorem take_rest (continues : longer.Continues cursor more) {count : Nat}
    (inside : count ≤ cursor.remaining) : longer.rest.take count = cursor.rest.take count := by
  rw [continues.rest]
  exact List.take_append_of_le_length (by rwa [length_rest])

theorem advance (continues : longer.Continues cursor more) {count : Nat}
    (inside : count ≤ cursor.remaining) :
    (longer.advance count).Continues (cursor.advance count) more where
  offset := by rw [offset_advance, offset_advance, continues.offset]
  rest := by
    rw [rest_advance, rest_advance, continues.rest]
    exact List.drop_append_of_le_length (by rwa [length_rest])

end Continues

end Cursor

namespace Reading

variable {α β : Type}

/-- What the reading yields, it yields as well when more bytes follow. -/
def Lasting (reading : Reading α) : Prop :=
  ∀ ⦃cursor longer more value next⦄, longer.Continues cursor more →
    reading.run cursor = .ok value next →
    ∃ later, reading.run longer = .ok value later ∧ later.Continues next more

/-- A fault of the reading remains when more bytes follow, unless it was the
lack of them. -/
def Final (reading : Reading α) : Prop :=
  ∀ ⦃cursor longer more fault stopped⦄, longer.Continues cursor more →
    reading.run cursor = .error fault stopped →
    fault.LacksBytes ∨ ∃ later, reading.run longer = .error fault later

/-- A reading whose form says nothing of the bytes behind is lasting. -/
theorem Accepts.lasting {reading : Reading α} {form : α → Bytes → Prop}
    (accepts : reading.Accepts fun value taken _ => form value taken) : reading.Lasting := by
  intro cursor longer more value next continues ran
  rcases (accepts cursor value next).mp ran with ⟨taken, left, split, holds, rfl⟩
  have inside : taken.length ≤ cursor.remaining := by
    rw [Cursor.remaining_of_rest split]
    omega
  refine ⟨longer.advance taken.length, ?_, continues.advance inside⟩
  apply (accepts longer value _).mpr
  refine ⟨taken, left ++ more, ?_, holds, rfl⟩
  rw [continues.rest, split, List.append_assoc]

/-- Both at once: more bytes make no difference to the reading, unless there
were too few. -/
structure Steady (reading : Reading α) : Prop where
  lasting : reading.Lasting
  final : reading.Final

/-! ## Steps -/

theorem final_of_yields {reading : Reading α}
    (yields : ∀ cursor, ∃ value next, reading.run cursor = .ok value next) :
    reading.Final := by
  intro cursor longer more fault stopped _ failed
  rcases yields cursor with ⟨value, next, yielded⟩
  rw [yielded] at failed
  cases failed

theorem final_pure (value : α) : Final (pure value) :=
  final_of_yields fun cursor => ⟨value, cursor, EStateM.run_pure value cursor⟩

theorem final_tail : tail.Final :=
  final_of_yields fun _ => ⟨_, _, run_tail⟩

/-- Nothing behind a reading has a part in its faults. -/
theorem Final.bind_of_error {first : Reading α} {cursor longer stopped : Cursor} {more : Bytes}
    {fault : Fault} (final : first.Final) (continues : longer.Continues cursor more)
    (failed : first.run cursor = .error fault stopped) (second : α → Reading β) :
    fault.LacksBytes ∨ ∃ later, (first >>= second).run longer = .error fault later := by
  rcases final continues failed with lacks | ⟨later, again⟩
  · exact .inl lacks
  · right
    rw [EStateM.run_bind, again]
    exact ⟨later, rfl⟩

/-- The second reading starts at corresponding places, because what the first one
yields is lasting. -/
theorem Final.bind {first : Reading α} {second : α → Reading β} (front : first.Steady)
    (back : ∀ value, (second value).Final) : (first >>= second).Final := by
  intro cursor longer more fault stopped continues failed
  rw [EStateM.run_bind] at failed
  cases ran : first.run cursor with
  | ok value next =>
      rw [ran] at failed
      rcases front.lasting continues ran with ⟨later, again, continuesLater⟩
      rw [EStateM.run_bind, again]
      exact back value continuesLater failed
  | error raised next =>
      rw [ran] at failed
      cases failed
      exact front.final.bind_of_error continues ran second

theorem Final.map {reading : Reading α} (final : reading.Final) (wrap : α → β) :
    Final (do return wrap (← reading)) := by
  intro cursor longer more fault stopped continues failed
  rw [EStateM.run_bind] at failed
  cases ran : reading.run cursor with
  | ok value next =>
      rw [ran] at failed
      cases failed
  | error raised next =>
      rw [ran] at failed
      cases failed
      exact final.bind_of_error continues ran _

theorem final_ensure (condition : Prop) [Decidable condition] (fault : Fault) :
    (ensure condition fault).Final := by
  intro cursor longer more raised stopped _ failed
  rw [run_ensure] at failed ⊢
  by_cases holds : condition
  · rw [if_pos holds] at failed
    cases failed
  · rw [if_neg holds] at failed ⊢
    cases failed
    exact .inr ⟨longer, rfl⟩

theorem final_ofExcept (result : Except Fault α) : Final (MonadExcept.ofExcept result) := by
  intro cursor longer more fault stopped _ failed
  cases result with
  | ok value => cases failed
  | error raised =>
      cases failed
      exact .inr ⟨longer, rfl⟩

theorem steady_ensure (condition : Prop) [Decidable condition] (fault : Fault) :
    (ensure condition fault).Steady where
  lasting := (accepts_ensure condition fault).lasting
  final := final_ensure condition fault

/-! ## Numbers and data -/

theorem final_word : word.Final := by
  intro cursor longer more fault stopped _ failed
  rw [run_word] at failed
  by_cases enough : 4 ≤ cursor.remaining
  · rw [if_pos enough] at failed
    cases failed
  · rw [if_neg enough] at failed
    cases failed
    exact .inl trivial

theorem steady_word : word.Steady where
  lasting := (accepts_word true).lasting
  final := final_word

theorem steady_tag (Kind : Type) [Tag Kind] [DecidableEq Kind] (unknown : UInt32 → Fault) :
    (tag Kind unknown).Steady where
  lasting := (accepts_tag true Kind unknown).lasting
  final := Final.bind steady_word fun _ => final_ofExcept _

/-- The bytes that a strict reader looks at are the same. -/
theorem final_padding (policy : Policy) (length : Nat) : (padding policy length).Final := by
  intro cursor longer more fault stopped continues failed
  rw [run_padding] at failed ⊢
  by_cases enough : padLength length ≤ cursor.remaining
  · have enoughLater := Nat.le_trans enough continues.remaining_le
    rw [if_pos enough] at failed
    rw [if_pos enoughLater, continues.take_rest enough, continues.offset]
    revert failed
    generalize (if policy.strictPadding = true then _ else _) = found
    intro failed
    cases found with
    | none => cases failed
    | some found =>
        cases failed
        exact .inr ⟨longer, rfl⟩
  · rw [if_neg enough] at failed
    cases failed
    exact .inl trivial

/-- Data that is there with its padding is judged as it stands. Otherwise the
bytes are too few. -/
theorem final_counted (policy : Policy) : (counted policy).Final := by
  intro cursor longer more fault stopped continues failed
  rw [run_counted] at failed
  cases ran : word.run cursor with
  | error raised next =>
      rw [ran] at failed
      cases failed
      exact final_word.bind_of_error continues ran _
  | ok length next =>
      rw [ran] at failed
      rcases steady_word.lasting continues ran with ⟨later, again, continuesLater⟩
      simp only [run_counted, again]
      by_cases enough : length.toNat + padLength length.toNat ≤ next.remaining
      · have enoughLater := Nat.le_trans enough continuesLater.remaining_le
        have inside : length.toNat ≤ next.remaining := by omega
        simp only [if_pos enough] at failed
        rw [if_pos enoughLater]
        cases padded : (padding policy length.toNat).run (next.advance length.toNat) with
        | ok _ final =>
            rw [padded] at failed
            cases failed
        | error raised final =>
            rw [padded] at failed
            cases failed
            rcases final_padding policy _ (continuesLater.advance inside) padded with
              lacks | ⟨stopped, paddedLater⟩
            · exact .inl lacks
            · rw [paddedLater]
              exact .inr ⟨stopped, rfl⟩
      · simp only [if_neg enough] at failed
        cases failed
        exact .inl trivial

theorem steady_counted (policy : Policy) : (counted policy).Steady where
  lasting := (accepts_counted policy).lasting
  final := final_counted policy

end Reading

open Reading

/-! ## The values of a message -/

/-- The body is judged on its own, so that what lies behind it has no say. -/
theorem Credential.steady_read (policy : Policy) : (read policy).Steady where
  lasting := (accepts_read policy).lasting
  final :=
    Final.bind steady_word fun _ =>
    Final.bind (steady_counted policy) fun _ =>
    Final.bind (steady_ensure _ _) fun _ =>
    final_ofExcept _

theorem VersionRange.final_read : read.Final :=
  Final.bind steady_word fun _ =>
  Final.bind steady_word fun _ =>
  final_pure _

theorem Outcome.final_read : read.Final := by
  rw [read_eq]
  apply Final.bind (steady_tag Kind .unknownAcceptStatus)
  intro kind
  cases kind with
  | success => exact final_tail.map success
  | programMismatch => exact VersionRange.final_read.map programMismatch
  | programUnavailable => exact final_pure _
  | procedureUnavailable => exact final_pure _
  | garbageArguments => exact final_pure _
  | systemError => exact final_pure _

theorem Rejection.final_read : read.Final := by
  rw [read_eq]
  apply Final.bind (steady_tag Kind .unknownRejectStatus)
  intro kind
  cases kind with
  | rpcMismatch => exact VersionRange.final_read.map rpcMismatch
  | authError => exact (steady_tag AuthStatus .unknownAuthStatus).final.map authError

theorem Call.final_read (policy : Policy) : (read policy).Final :=
  Final.bind steady_word fun _ =>
  Final.bind (steady_ensure _ _) fun _ =>
  Final.bind steady_word fun _ =>
  Final.bind steady_word fun _ =>
  Final.bind steady_word fun _ =>
  Final.bind (Credential.steady_read policy) fun _ =>
  Final.bind (Credential.steady_read policy) fun _ =>
  final_tail.map _

theorem Reply.final_read (policy : Policy) : (read policy).Final := by
  rw [read_eq]
  apply Final.bind (steady_tag Kind .unknownReplyStatus)
  intro kind
  cases kind with
  | accepted =>
      apply Final.bind (Credential.steady_read policy)
      intro verifier
      exact Outcome.final_read.map (accepted verifier)
  | denied => exact Rejection.final_read.map denied

namespace Message

theorem final_read (policy : Policy) : (read policy).Final := by
  rw [read_eq]
  apply Final.bind steady_word
  intro xid
  refine Final.map ?_ fun body => ({ xid, body } : Message)
  apply Final.bind (steady_tag Body.Kind .unknownMessageType)
  intro kind
  cases kind with
  | call => exact (Call.final_read policy).map Body.call
  | reply => exact (Reply.final_read policy).map Body.reply

/-- More bytes help only where there were too few. -/
theorem ofBytes_append_of_error {policy : Policy} {bytes : Bytes} {fault : Fault}
    (failed : ofBytes policy bytes = .error fault) (more : Bytes) :
    fault.LacksBytes ∨ ofBytes policy (bytes ++ more) = .error fault := by
  rcases ofBytes_eq_error_iff.mp failed with ⟨stopped, ran⟩
  rcases final_read policy (Cursor.continues_ofBytes bytes more) ran with lacks | again
  · exact .inl lacks
  · exact .inr (ofBytes_eq_error_iff.mpr again)

/-- A rejection that is no matter of length is a matter of the contents, and no
bytes that come later change it. -/
theorem ofBytes_rejection_final {policy : Policy} {bytes : Bytes} {fault : Fault}
    (failed : ofBytes policy bytes = .error fault) (notTruncated : fault.code ≠ some .truncated)
    (notLength : fault.code ≠ some .invalidLength) :
    fault.code ∈ [some .invalidDiscriminant, some .invalidAuthStatus, some .invalidRpcVersion,
      some .invalidAuthData, some .nonZeroPadding] ∧
    ∀ more, ofBytes policy (bytes ++ more) = .error fault := by
  constructor
  · have known := (ofReader_of_ofBytes failed).code_mem
    simp only [List.mem_cons, notTruncated, notLength, false_or] at known
    simpa using known
  · intro more
    rcases ofBytes_append_of_error failed more with lacks | again
    · rcases lacks.code with truncated | length
      · exact absurd truncated notTruncated
      · exact absurd length notLength
    · exact again

/-- The credential of the sample ends behind 48 bytes, and strictness finds its
padding dirty. -/
theorem ofBytes_rejection_final_sampleDirty :
    ofBytes { strictPadding := true } (sampleDirty.take 48) = .error (.dirtyPadding 10 8) ∧
      ofBytes { strictPadding := true } (sampleDirty.take 48 ++ [0, 0, 0, 9]) =
        .error (.dirtyPadding 10 8) := by
  have failed : ofBytes { strictPadding := true } (sampleDirty.take 48) =
      .error (.dirtyPadding 10 8) := rfl
  have final := ofBytes_rejection_final failed (by decide) (by decide)
  exact ⟨failed, final.2 [0, 0, 0, 9]⟩

end Message

end RpcWire
