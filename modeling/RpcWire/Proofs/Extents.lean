import RpcWire.Proofs.Faults
import RpcWire.Proofs.Registers

namespace RpcWire

/-! # The extent of data

Data takes its length and the padding up to the next multiple of four. When that
much is not there, nothing behind the length word is taken. When it is, only the
padding can be found fault with, and then the reader stands right in front of it. -/

theorem padLength_le_of_dvd {length more : Nat} (aligned : 4 ∣ length + more) :
    padLength length ≤ more := by
  unfold padLength
  omega

theorem Bytes.firstNonZero_eq_some_iff {bytes : Bytes} {index : Nat} {byte : UInt8} :
    bytes.firstNonZero = some (index, byte) ↔
      bytes[index]? = some byte ∧ byte ≠ 0 ∧ ∀ earlier < index, bytes[earlier]? = some 0 := by
  induction bytes generalizing index with
  | nil => simp [firstNonZero]
  | cons first rest induction =>
      by_cases zero : first = 0
      · cases index with
        | zero =>
            have other : 0 = byte → byte = 0 := Eq.symm
            simpa [firstNonZero, zero] using other
        | succ index =>
            rw [Nat.forall_lt_succ_left]
            simp [firstNonZero, zero, induction]
      · cases index with
        | zero =>
            have other : first = byte → byte ≠ 0 := fun same => same ▸ zero
            simpa [firstNonZero, zero] using other
        | succ index =>
            rw [Nat.forall_lt_succ_left]
            simp [firstNonZero, zero]

/-- The bytes between the end of the data and the next boundary. -/
def Cursor.paddingBehind (cursor : Cursor) (length : Nat) : Bytes :=
  (cursor.rest.drop length).take (padLength length)

namespace Reading

variable {policy : Policy} {length : Nat} {start : Cursor}

/-- What comes of data whose bytes are all there: the data, with the reader behind the
padding, or the first byte of the padding that a strict reader minds, with the reader
in front of the padding. -/
structure TakesData (policy : Policy) (length : Nat) (start : Cursor)
    (result : EStateM.Result Fault Cursor Bytes) : Prop where
  size : (start.rest.take length).length = length
  clean : result = .ok (start.rest.take length) (start.advance (length + padLength length)) ↔
    (policy.strictPadding = true → start.paddingBehind length = Bytes.zeros (padLength length))
  dirty : policy.strictPadding = true →
    start.paddingBehind length ≠ Bytes.zeros (padLength length) → ∃ index byte,
      (start.paddingBehind length)[index]? = some byte ∧ byte ≠ 0 ∧
      (∀ earlier < index, (start.paddingBehind length)[earlier]? = some 0) ∧
      result = .error (.dirtyPadding (start.offset + length + index) byte) (start.advance length)

/-- The end of `counted` and of `fixed`: the data is known, and its padding is next. -/
def pastPadding (policy : Policy) (length : Nat) (start : Cursor) :
    EStateM.Result Fault Cursor Bytes :=
  match (padding policy length).run (start.advance length) with
  | .ok () final => .ok (start.rest.take length) final
  | .error fault final => .error fault final

theorem pastPadding_eq (policy : Policy) (room : length + padLength length ≤ start.remaining) :
    pastPadding policy length start =
      match if policy.strictPadding then (start.paddingBehind length).firstNonZero else none with
      | some (index, byte) =>
          .error (.dirtyPadding (start.offset + length + index) byte) (start.advance length)
      | none =>
          .ok (start.rest.take length) (start.advance (length + padLength length)) := by
  have enough : padLength length ≤ (start.advance length).remaining := by
    rw [Cursor.remaining_advance]
    omega
  rw [pastPadding, run_padding, if_pos enough, Cursor.rest_advance, Cursor.advance_advance,
    Cursor.paddingBehind]
  generalize (if policy.strictPadding = true then _ else _) = found
  rcases found with _ | ⟨index, byte⟩ <;> rfl

theorem length_paddingBehind (room : length + padLength length ≤ start.remaining) :
    (start.paddingBehind length).length = padLength length := by
  rw [Cursor.paddingBehind, List.length_take, List.length_drop, Cursor.length_rest]
  omega

theorem takesData_pastPadding (policy : Policy)
    (room : length + padLength length ≤ start.remaining) :
    TakesData policy length start (pastPadding policy length start) := by
  have size : (start.rest.take length).length = length := by
    rw [List.length_take, Cursor.length_rest]
    omega
  have zeros := Bytes.firstNonZero_eq_none_iff (start.paddingBehind length)
  rw [length_paddingBehind room] at zeros
  rw [pastPadding_eq policy room]
  cases strict : policy.strictPadding with
  | false =>
      refine ⟨size, ?_, fun minds => by rw [strict] at minds; cases minds⟩
      simp [strict]
  | true =>
      cases found : (start.paddingBehind length).firstNonZero with
      | none =>
          have clean := zeros.mp found
          refine ⟨size, ?_, fun _ dirty => absurd clean dirty⟩
          simp [clean]
      | some first =>
          rcases first with ⟨index, byte⟩
          have dirty : start.paddingBehind length ≠ Bytes.zeros (padLength length) := by
            intro clean
            rw [zeros.mpr clean] at found
            cases found
          rcases Bytes.firstNonZero_eq_some_iff.mp found with ⟨here, nonZero, earlier⟩
          refine ⟨size, ?_, fun _ _ => ⟨index, byte, here, nonZero, earlier, ?_⟩⟩
          · simp [strict, dirty]
          · simp

/-! ## Counted and fixed data -/

variable {cursor next : Cursor}

/-- Data that is all there is not refused for its length. -/
theorem pastPadding_ne_error (room : length + padLength length ≤ start.remaining) {fault : Fault}
    {stopped : Cursor} (apart : fault.code ≠ some .nonZeroPadding) :
    pastPadding policy length start ≠ .error fault stopped := by
  intro failed
  rw [pastPadding_eq policy room] at failed
  generalize (if policy.strictPadding = true then _ else _) = found at failed
  rcases found with _ | ⟨index, byte⟩ <;> cases failed
  exact apart rfl

theorem run_counted_of_room (policy : Policy) {length : UInt32}
    (ran : word.run cursor = .ok length next)
    (room : length.toNat + padLength length.toNat ≤ next.remaining) :
    (counted policy).run cursor = pastPadding policy length.toNat next := by
  rw [run_counted, ran]
  simp only [if_pos room]
  rfl

theorem run_counted_eq_error_iff (policy : Policy) {length : UInt32}
    (ran : word.run cursor = .ok length next) :
    (counted policy).run cursor = .error (.dataTooLong length next.remaining) next ↔
      next.remaining < length.toNat + padLength length.toNat := by
  constructor
  · intro failed
    by_contra enough
    have room := Nat.le_of_not_lt enough
    rw [run_counted_of_room policy ran room] at failed
    exact pastPadding_ne_error room (by rintro ⟨⟩) failed
  · intro missing
    rw [run_counted, ran]
    simp only [if_neg (Nat.not_le_of_lt missing)]

theorem run_fixed_of_room (policy : Policy)
    (room : length + padLength length ≤ cursor.remaining) :
    (fixed policy length).run cursor = pastPadding policy length cursor := by
  rw [run_fixed, if_pos room]
  rfl

theorem run_fixed_eq_error_iff (policy : Policy) (length : Nat) (cursor : Cursor) :
    (∃ needed, (fixed policy length).run cursor =
      .error (.truncated needed cursor.offset cursor.remaining) cursor) ↔
      cursor.remaining < length + padLength length := by
  constructor
  · intro refused
    rcases refused with ⟨needed, failed⟩
    by_contra enough
    have room := Nat.le_of_not_lt enough
    rw [run_fixed_of_room policy room] at failed
    exact pastPadding_ne_error room (by rintro ⟨⟩) failed
  · intro missing
    rw [run_fixed, if_neg (Nat.not_le_of_lt missing)]
    exact ⟨_, rfl⟩

theorem eq_advance_of_word {length : UInt32} (ran : word.run cursor = .ok length next) :
    next = cursor.advance 4 := by
  rw [run_word] at ran
  by_cases enough : 4 ≤ cursor.remaining
  · rw [if_pos enough] at ran
    cases ran
    rfl
  · rw [if_neg enough] at ran
    cases ran

theorem run_counted_of_short (policy : Policy) (short : cursor.remaining < 4) :
    (counted policy).run cursor =
      .error (.truncated 4 cursor.offset cursor.remaining) cursor := by
  rw [run_counted, run_word, if_neg (Nat.not_le_of_lt short)]

/-- Data is refused for its length just when it and its padding are longer than what
remains, and the reader then stands behind the length word, or where it stood when the
length is fixed. In registers of 64 bits the judgement is the same for every length
that they hold. -/
theorem data_judged_by_extent :
    (∀ length, 4 ∣ length + padLength length ∧
      ∀ more, 4 ∣ length + more → padLength length ≤ more) ∧
    (∀ (policy : Policy) (cursor : Cursor), cursor.remaining < 4 →
      (counted policy).run cursor =
        .error (.truncated 4 cursor.offset cursor.remaining) cursor) ∧
    (∀ (policy : Policy) (cursor next : Cursor) (length : UInt32),
      word.run cursor = .ok length next → next = cursor.advance 4 ∧
      ((counted policy).run cursor = .error (.dataTooLong length next.remaining) next ↔
        next.remaining < length.toNat + padLength length.toNat) ∧
      (length.toNat + padLength length.toNat ≤ next.remaining →
        TakesData policy length.toNat next ((counted policy).run cursor))) ∧
    (∀ (policy : Policy) (length : Nat) (cursor : Cursor),
      ((∃ needed, (fixed policy length).run cursor =
          .error (.truncated needed cursor.offset cursor.remaining) cursor) ↔
        cursor.remaining < length + padLength length) ∧
      (length + padLength length ≤ cursor.remaining →
        TakesData policy length cursor ((fixed policy length).run cursor))) ∧
    ((∀ length remaining, (Fault.dataTooLong length remaining).Tells .invalidLength length) ∧
      (∀ needed offset remaining,
        (Fault.truncated needed offset remaining).Tells .truncated 0) ∧
      ∀ offset byte, (Fault.dirtyPadding offset byte).Tells .nonZeroPadding byte.toUInt32) ∧
    (∀ policy, ReadScript.Step.string.read policy = do return .string (← counted policy)) ∧
    ∀ policy, Register.Does (Register.counted policy) (counted policy) ∧
      ∀ length, Register.Does (Register.fixed policy length) (fixed policy length.toNat) := by
  refine ⟨?_, ?_, ?_, ?_, ?_, fun _ => rfl, ?_⟩
  · exact fun length => ⟨four_dvd_add_padLength length, fun _ => padLength_le_of_dvd⟩
  · exact fun policy cursor short => run_counted_of_short policy short
  · intro policy cursor next length ran
    refine ⟨eq_advance_of_word ran, run_counted_eq_error_iff policy ran, ?_⟩
    intro room
    rw [run_counted_of_room policy ran room]
    exact takesData_pastPadding policy room
  · intro policy length cursor
    refine ⟨run_fixed_eq_error_iff policy length cursor, ?_⟩
    intro room
    rw [run_fixed_of_room policy room]
    exact takesData_pastPadding policy room
  · exact ⟨fun _ _ => ⟨rfl, rfl⟩, fun _ _ _ => ⟨rfl, rfl⟩, fun _ _ => ⟨rfl, rfl⟩⟩
  · exact fun policy => ⟨Register.does_counted policy, Register.does_fixed policy⟩

/-- Five bytes whose padding is not zero. -/
def sampleUnclean : Cursor := .ofBytes [0, 0, 0, 5, 1, 2, 3, 4, 5, 0, 7, 0]

theorem data_judged_by_extent_sample :
    let strict : Policy := { strictPadding := true }
    word.run sampleUnclean = .ok 5 (sampleUnclean.advance 4) ∧
    TakesData {} 5 (sampleUnclean.advance 4) ((counted {}).run sampleUnclean) ∧
    TakesData strict 5 (sampleUnclean.advance 4) ((counted strict).run sampleUnclean) ∧
    (counted strict).run sampleUnclean = .error (.dirtyPadding 10 7) (sampleUnclean.advance 9) ∧
    Register.Holds sampleUnclean ∧
    (Register.fixed {} 0xffffffffffffffff).run sampleUnclean =
      .error (.truncated 0xffffffffffffffff 0 12) sampleUnclean := by
  intro strict
  have ran : word.run sampleUnclean = .ok 5 (sampleUnclean.advance 4) := rfl
  have holds : Register.Holds sampleUnclean := ⟨by decide, by decide⟩
  rcases data_judged_by_extent with ⟨_, _, counted, _, _, _, registers⟩
  have does := (registers {}).2 0xffffffffffffffff sampleUnclean holds
  refine ⟨ran, (counted {} _ _ _ ran).2.2 (by decide), (counted strict _ _ _ ran).2.2 (by decide),
    rfl, holds, does.trans ?_⟩
  rw [run_fixed, if_neg (by decide), if_neg (by decide)]
  rfl

end Reading

end RpcWire
