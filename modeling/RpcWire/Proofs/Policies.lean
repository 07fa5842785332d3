import RpcWire.Proofs.RoundTrip

namespace RpcWire

/-! # Policies

A policy refuses, and does nothing else. A run under a policy goes like the run
under none, up to the place where the policy puts an end to it. So two runs are
compared step by step, and what a policy lets through means what it would have
meant without one. -/

/-- What a policy is the cause of. -/
def Fault.RaisedBy (policy : Policy) : Fault → Prop
  | dirtyPadding .. => policy.strictPadding = true
  | tooManyGids count limit => limit = policy.maxGids ∧ exceeds limit count = true
  | bodyTooLong length limit => limit = policy.maxBody ∧ exceeds limit length = true
  | _ => False

theorem Fault.raisedBy_tooManyGids {policy : Policy} {count : Nat}
    (above : exceeds policy.maxGids count = true) :
    (tooManyGids count policy.maxGids).RaisedBy policy :=
  ⟨rfl, above⟩

theorem Fault.raisedBy_bodyTooLong {policy : Policy} {length : Nat}
    (above : exceeds policy.maxBody length = true) :
    (bodyTooLong length policy.maxBody).RaisedBy policy :=
  ⟨rfl, above⟩

theorem Fault.RaisedBy.code {policy : Policy} {fault : Fault} (raised : fault.RaisedBy policy) :
    (fault.code = some .invalidLength ∧ (policy.maxGids ≠ 0 ∨ policy.maxBody ≠ 0)) ∨
      (fault.code = some .nonZeroPadding ∧ policy.strictPadding = true) := by
  have limited {limit : UInt32} {number : Nat} (above : exceeds limit number = true) :
      limit ≠ 0 := by
    rintro rfl
    rw [exceeds_no_limit] at above
    cases above
  cases fault with
  | dirtyPadding offset byte => exact .inr ⟨rfl, raised⟩
  | tooManyGids count limit =>
      rcases raised with ⟨rfl, above⟩
      exact .inl ⟨rfl, .inl (limited above)⟩
  | bodyTooLong length limit =>
      rcases raised with ⟨rfl, above⟩
      exact .inl ⟨rfl, .inr (limited above)⟩
  | _ => cases raised

/-! ## Results under a policy -/

/-- A result under a policy is the free one, unless the policy refuses. -/
def Policy.Restricts {α : Type} (policy : Policy) (restricted free : Except Fault α) : Prop :=
  restricted = free ∨ ∃ fault, fault.RaisedBy policy ∧ restricted = .error fault

theorem Policy.Restricts.map {α β : Type} {policy : Policy} {restricted free : Except Fault α}
    (restricts : policy.Restricts restricted free) (wrap : α → β) :
    policy.Restricts (restricted.map wrap) (free.map wrap) := by
  rcases restricts with rfl | ⟨fault, raised, rfl⟩
  · exact .inl rfl
  · exact .inr ⟨fault, raised, rfl⟩

namespace Reading

variable {α β : Type} {policy : Policy}

/-- The same for readings, wherever they start. -/
def Restricts (policy : Policy) (restricted free : Reading α) : Prop :=
  ∀ cursor, restricted.run cursor = free.run cursor ∨
    ∃ fault stopped, fault.RaisedBy policy ∧ restricted.run cursor = .error fault stopped

theorem Restricts.refl (reading : Reading α) : Restricts policy reading reading :=
  fun _ => .inl rfl

theorem Restricts.bind {restricted free : Reading α} {later laterFree : α → Reading β}
    (first : Restricts policy restricted free)
    (second : ∀ value, Restricts policy (later value) (laterFree value)) :
    Restricts policy (restricted >>= later) (free >>= laterFree) := by
  intro cursor
  rw [EStateM.run_bind, EStateM.run_bind]
  rcases first cursor with same | ⟨fault, stopped, raised, failed⟩
  · rw [same]
    cases free.run cursor with
    | ok value next => exact second value next
    | error fault stopped => exact .inl rfl
  · -- What the free run does from here on no longer matters.
    rw [failed]
    exact .inr ⟨fault, stopped, raised, rfl⟩

theorem restricts_ofExcept {restricted free : Except Fault α}
    (restricts : policy.Restricts restricted free) :
    Restricts policy (MonadExcept.ofExcept restricted) (MonadExcept.ofExcept free) := by
  intro cursor
  rcases restricts with rfl | ⟨fault, raised, rfl⟩
  · exact .inl rfl
  · exact .inr ⟨fault, cursor, raised, rfl⟩

/-- A limit lets a number pass or raises its own fault. No limit always lets it
pass. -/
theorem restricts_limit {limit : UInt32} {number : Nat} {fault freeFault : Fault}
    (raised : exceeds limit number = true → fault.RaisedBy policy) :
    Restricts policy (ensure (exceeds limit number = false) fault)
      (ensure (exceeds 0 number = false) freeFault) := by
  intro cursor
  rw [run_ensure, run_ensure, if_pos (exceeds_no_limit number)]
  cases above : exceeds limit number with
  | false => exact .inl (if_pos rfl)
  | true => exact .inr ⟨fault, cursor, raised above, if_neg (by decide)⟩

theorem restricts_padding (policy : Policy) (length : Nat) :
    Restricts policy (padding policy length) (padding {} length) := by
  intro cursor
  rw [run_padding, run_padding]
  by_cases enough : padLength length ≤ cursor.remaining
  · rw [if_pos enough, if_pos enough]
    cases strict : policy.strictPadding with
    | false => exact .inl rfl
    | true =>
        rw [if_pos rfl]
        cases Bytes.firstNonZero (cursor.rest.take (padLength length)) with
        | none => exact .inl rfl
        | some found =>
            rcases found with ⟨index, byte⟩
            exact .inr ⟨.dirtyPadding (cursor.offset + index) byte, cursor, strict, rfl⟩
  · rw [if_neg enough, if_neg enough]
    exact .inl rfl

theorem restricts_counted (policy : Policy) :
    Restricts policy (counted policy) (counted {}) :=
  (Restricts.refl word).bind fun length =>
  (Restricts.refl get).bind fun _ =>
  (Restricts.refl (ensure _ _)).bind fun _ =>
  (Restricts.refl (take length.toNat)).bind fun data =>
  (restricts_padding policy length.toNat).bind fun _ =>
  Restricts.refl (pure data)

end Reading

open Reading

/-! ## Values under a policy -/

theorem UnixIdentity.restricts_read (policy : Policy) :
    Restricts policy (read policy) (read {}) :=
  (Restricts.refl word).bind fun _ =>
  (restricts_counted policy).bind fun _ =>
  (Restricts.refl word).bind fun _ =>
  (Restricts.refl word).bind fun _ =>
  (Restricts.refl words).bind fun _ =>
  (restricts_limit Fault.raisedBy_tooManyGids).bind fun _ =>
  Restricts.refl (pure _)

/-- The reader of a body inherits the policy of the reader around it. -/
theorem Credential.restricts_identityOfBody (policy : Policy) (body : Bytes) :
    policy.Restricts (identityOfBody policy body) (identityOfBody {} body) := by
  unfold identityOfBody
  rcases UnixIdentity.restricts_read policy (.ofBytes body) with
    same | ⟨fault, stopped, raised, failed⟩
  · rw [same]
    exact .inl rfl
  · rw [failed]
    exact .inr ⟨fault, raised, rfl⟩

theorem Credential.restricts_ofBody (policy : Policy) (flavor : UInt32) (body : Bytes) :
    policy.Restricts (ofBody policy flavor body) (ofBody {} flavor body) := by
  unfold ofBody
  by_cases isNone : flavor = 0
  · rw [if_pos isNone, if_pos isNone]
    exact .inl rfl
  · rw [if_neg isNone, if_neg isNone]
    by_cases isSys : flavor = 1
    · rw [if_pos isSys, if_pos isSys]
      exact (restricts_identityOfBody policy body).map sys
    · rw [if_neg isSys, if_neg isSys]
      exact .inl rfl

theorem Credential.restricts_read (policy : Policy) :
    Restricts policy (read policy) (read {}) :=
  (Restricts.refl word).bind fun flavor =>
  (restricts_counted policy).bind fun body =>
  (restricts_limit Fault.raisedBy_bodyTooLong).bind fun _ =>
  restricts_ofExcept (restricts_ofBody policy flavor body)

theorem Call.restricts_read (policy : Policy) :
    Restricts policy (read policy) (read {}) :=
  (Restricts.refl word).bind fun _ =>
  (Restricts.refl (ensure _ _)).bind fun _ =>
  (Restricts.refl word).bind fun _ =>
  (Restricts.refl word).bind fun _ =>
  (Restricts.refl word).bind fun _ =>
  (Credential.restricts_read policy).bind fun _ =>
  (Credential.restricts_read policy).bind fun _ =>
  Restricts.refl _

theorem Reply.restricts_read (policy : Policy) :
    Restricts policy (read policy) (read {}) := by
  rw [read_eq, read_eq]
  refine (Restricts.refl _).bind fun kind => ?_
  cases kind with
  | accepted => exact (Credential.restricts_read policy).bind fun _ => Restricts.refl _
  | denied => exact Restricts.refl _

namespace Message

theorem restricts_read (policy : Policy) : Restricts policy (read policy) (read {}) := by
  rw [read_eq, read_eq]
  refine (Restricts.refl word).bind fun xid => ?_
  refine Restricts.bind ?_ fun body => Restricts.refl (pure ({ xid, body } : Message))
  refine (Restricts.refl (.tag Body.Kind .unknownMessageType)).bind fun kind => ?_
  cases kind with
  | call => exact (Call.restricts_read policy).bind fun _ => Restricts.refl _
  | reply => exact (Reply.restricts_read policy).bind fun _ => Restricts.refl _

theorem restricts_ofBytes (policy : Policy) (bytes : Bytes) :
    policy.Restricts (ofBytes policy bytes) (ofBytes {} bytes) := by
  unfold ofBytes
  rcases restricts_read policy (.ofBytes bytes) with same | ⟨fault, stopped, raised, failed⟩
  · rw [same]
    exact .inl rfl
  · rw [failed]
    exact .inr ⟨fault, raised, rfl⟩

/-! ## What a policy lets through -/

/-- What a policy asks of a message that was found without it. -/
@[mk_iff]
structure Found.Passes (policy : Policy) (bytes : Bytes) (found : Found) : Prop where
  canonical : policy.strictPadding = true →
    found.message.toBytes = .ok (bytes.take found.consumed)
  fewGids : policy.maxGids ≠ 0 → ∀ identity, .sys identity ∈ found.message.credentials →
    identity.gids.count ≤ policy.maxGids.toNat
  shortBodies : policy.maxBody ≠ 0 → ∀ credential ∈ found.message.credentials,
    credential.bodySize ≤ policy.maxBody.toNat

theorem fits_iff_passes {policy : Policy} {bytes : Bytes} {found : Found} :
    found.Fits policy bytes ↔ found.Fits {} bytes ∧ found.Passes policy bytes := by
  constructor
  · intro fits
    rcases Layout.matches_iff.mp fits.fills with ⟨fillsFree, whole⟩
    refine ⟨⟨fits.inside, ?_, fillsFree, fits.ended⟩, ?_, ?_, ?_⟩
    · intro credential member
      have acceptable := fits.acceptable credential member
      exact ⟨acceptable.received, acceptable.encodable, exceeds_no_limit _,
        fun _ _ => exceeds_no_limit _⟩
    · intro strict
      rw [toBytes_eq fits.encodable, whole strict]
    · intro limited identity member
      have permitted := (fits.acceptable _ member).permittedGids identity rfl
      exact exceeds_eq_false_iff.mp permitted limited
    · intro limited credential member
      have permitted := (fits.acceptable credential member).permittedBody
      exact exceeds_eq_false_iff.mp permitted limited
  · intro holds
    rcases holds with ⟨fits, canonical, fewGids, shortBodies⟩
    refine ⟨fits.inside, ?_, ?_, fits.ended⟩
    · intro credential member
      have acceptable := fits.acceptable credential member
      refine ⟨acceptable.received, acceptable.encodable, ?_, ?_⟩
      · exact exceeds_eq_false_iff.mpr fun limited => shortBodies limited credential member
      · rintro identity rfl
        exact exceeds_eq_false_iff.mpr fun limited => fewGids limited identity member
    · refine Layout.matches_iff.mpr ⟨fits.fills, fun strict => ?_⟩
      have written := canonical strict
      rw [toBytes_eq fits.encodable] at written
      exact (Except.ok.inj written).symm

/-- A policy never changes what is found. It lets through what is written as it
stands and stays within the limits. What it refuses, it refuses under a code of
its own, and a fault of the bytes stays what it is unless the policy speaks
first. -/
theorem ofBytes_policy_filters (policy : Policy) (bytes : Bytes) :
    (∀ found, ofBytes policy bytes = .ok found ↔
      ofBytes {} bytes = .ok found ∧
        (policy.strictPadding = true →
          found.message.toBytes = .ok (bytes.take found.consumed)) ∧
        (policy.maxGids ≠ 0 → ∀ identity, .sys identity ∈ found.message.credentials →
          identity.gids.count ≤ policy.maxGids.toNat) ∧
        (policy.maxBody ≠ 0 → ∀ credential ∈ found.message.credentials,
          credential.bodySize ≤ policy.maxBody.toNat)) ∧
    (∀ found raised, ofBytes {} bytes = .ok found → ofBytes policy bytes = .error raised →
      raised.RaisedBy policy ∧
        ((raised.code = some .invalidLength ∧ (policy.maxGids ≠ 0 ∨ policy.maxBody ≠ 0)) ∨
          (raised.code = some .nonZeroPadding ∧ policy.strictPadding = true))) ∧
    (∀ fault, ofBytes {} bytes = .error fault →
      ∃ raised, ofBytes policy bytes = .error raised ∧
        (raised = fault ∨ raised.RaisedBy policy ∧
          ((raised.code = some .invalidLength ∧ (policy.maxGids ≠ 0 ∨ policy.maxBody ≠ 0)) ∨
            (raised.code = some .nonZeroPadding ∧ policy.strictPadding = true)))) := by
  have restricts := restricts_ofBytes policy bytes
  refine ⟨?_, ?_, ?_⟩
  · intro found
    rw [ofBytes_eq_ok_iff, ofBytes_eq_ok_iff, fits_iff_passes, Found.passes_iff]
  · intro found raised accepted refused
    rcases restricts with same | ⟨fault, raisedBy, failed⟩
    · rw [same, accepted] at refused
      cases refused
    · rcases Except.error.inj (failed.symm.trans refused) with rfl
      exact ⟨raisedBy, raisedBy.code⟩
  · intro fault failed
    rcases restricts with same | ⟨raised, raisedBy, refused⟩
    · exact ⟨fault, same.trans failed, .inl rfl⟩
    · exact ⟨raised, refused, .inr ⟨raisedBy, raisedBy.code⟩⟩

theorem ofBytes_policy_filters_sampleDirty :
    ofBytes {} sampleDirty = .ok { message := sample.received, consumed := 55 } ∧
      ofBytes { strictPadding := true } sampleDirty = .error (.dirtyPadding 10 8) ∧
        (Fault.dirtyPadding 10 8).RaisedBy { strictPadding := true } := by
  have accepted : ofBytes {} sampleDirty =
      .ok { message := sample.received, consumed := 55 } := rfl
  have refused : ofBytes { strictPadding := true } sampleDirty =
      .error (.dirtyPadding 10 8) := rfl
  have raised := (ofBytes_policy_filters _ _).2.1 _ _ accepted refused
  exact ⟨accepted, refused, raised.1⟩

end Message

end RpcWire
