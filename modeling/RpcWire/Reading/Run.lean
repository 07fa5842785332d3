import RpcWire.Reading

namespace RpcWire.Reading

/-! # What a reading gives

The run of each basic reading, said in terms of what is left to read. After
these equations no proof has to open a reading again. -/

variable {cursor : Cursor}

theorem run_ensure (condition : Prop) [Decidable condition] (fault : Fault) :
    (ensure condition fault).run cursor =
      if condition then .ok () cursor else .error fault cursor := by
  unfold ensure
  split <;> rfl

theorem run_require (count : Nat) :
    (require count).run cursor =
      if count ≤ cursor.remaining then .ok () cursor
      else .error (.truncated count cursor.offset cursor.remaining) cursor :=
  run_ensure _ _

theorem run_take {count : Nat} (inside : count ≤ cursor.remaining) :
    (take count).run cursor = .ok (cursor.rest.take count) (cursor.advance count) := by
  rw [take, EStateM.run_modifyGet, Cursor.next_eq_take_rest cursor inside]

theorem run_tryCatch {α : Type} (first : Reading α) (second : Fault → Reading α) :
    (tryCatch first second).run cursor =
      match first.run cursor with
      | .ok value next => .ok value next
      | .error fault next => (second fault).run next := by
  change EStateM.tryCatch first second cursor = _
  delta EStateM.tryCatch EStateM.run
  cases first cursor <;> rfl

theorem run_word :
    word.run cursor =
      if 4 ≤ cursor.remaining then
        .ok (Word.ofBytes (cursor.rest.take 4)) (cursor.advance 4)
      else .error (.truncated 4 cursor.offset cursor.remaining) cursor := by
  rw [word, EStateM.run_bind, run_require]
  by_cases enough : 4 ≤ cursor.remaining
  · simp only [enough, if_true, EStateM.run_bind, EStateM.run_pure, run_take]
  · simp only [enough, if_false]

theorem run_double :
    double.run cursor =
      if 8 ≤ cursor.remaining then
        .ok (Word.double (Word.ofBytes (cursor.rest.take 4))
          (Word.ofBytes ((cursor.rest.drop 4).take 4))) (cursor.advance 8)
      else .error (.truncated 8 cursor.offset cursor.remaining) cursor := by
  rw [double, EStateM.run_bind, run_require]
  by_cases enough : 8 ≤ cursor.remaining
  · have high : 4 ≤ cursor.remaining := by omega
    have low : 4 ≤ (cursor.advance 4).remaining := by simp; omega
    simp only [enough, if_true, EStateM.run_bind, EStateM.run_pure, run_word, high, low,
      Cursor.advance_advance, Cursor.rest_advance]
  · simp only [enough, if_false]

theorem run_tail : tail.run cursor = .ok cursor.rest (cursor.advance cursor.remaining) := rfl

theorem run_checkCount (count minimum : Nat) :
    (checkCount count minimum).run cursor =
      if count ≤ cursor.remaining / max minimum 1 then .ok () cursor
      else .error (.arrayTooLong count cursor.remaining) cursor :=
  run_ensure _ _

/-- The padding is looked at only by a strict reader. -/
theorem run_padding (policy : Policy) (length : Nat) :
    (padding policy length).run cursor =
      if padLength length ≤ cursor.remaining then
        match if policy.strictPadding then
            Bytes.firstNonZero (cursor.rest.take (padLength length)) else none with
        | some (index, byte) => .error (.dirtyPadding (cursor.offset + index) byte) cursor
        | none => .ok () (cursor.advance (padLength length))
      else .error (.truncated (padLength length) cursor.offset cursor.remaining) cursor := by
  rw [padding, EStateM.run_bind, run_require]
  by_cases enough : padLength length ≤ cursor.remaining
  · simp only [enough, if_true, EStateM.run_bind, EStateM.run_get, Cursor.next_eq_take_rest]
    generalize (if policy.strictPadding = true then _ else _) = found
    cases found <;> rfl
  · simp [enough]

theorem run_counted (policy : Policy) :
    (counted policy).run cursor =
      match word.run cursor with
      | .error fault next => .error fault next
      | .ok length next =>
          if length.toNat + padLength length.toNat ≤ next.remaining then
            match (padding policy length.toNat).run (next.advance length.toNat) with
            | .ok () final => .ok (next.rest.take length.toNat) final
            | .error fault final => .error fault final
          else .error (.dataTooLong length next.remaining) next := by
  rw [counted, EStateM.run_bind]
  cases word.run cursor with
  | error fault next => rfl
  | ok length next =>
      simp only [EStateM.run_bind, EStateM.run_get, run_ensure]
      by_cases enough : length.toNat + padLength length.toNat ≤ next.remaining
      · have inside : length.toNat ≤ next.remaining := by omega
        simp only [enough, if_true, run_take inside]
        cases (padding policy length.toNat).run (next.advance length.toNat) <;> rfl
      · simp only [enough, if_false]

theorem run_fixed (policy : Policy) (length : Nat) :
    (fixed policy length).run cursor =
      if length + padLength length ≤ cursor.remaining then
        match (padding policy length).run (cursor.advance length) with
        | .ok () final => .ok (cursor.rest.take length) final
        | .error fault final => .error fault final
      else
        .error (.truncated (if length ≤ cursor.remaining then length + padLength length
          else length) cursor.offset cursor.remaining) cursor := by
  rw [fixed, EStateM.run_bind, run_require]
  by_cases fits : length ≤ cursor.remaining
  · simp only [fits, if_true, EStateM.run_bind, run_require]
    by_cases enough : length + padLength length ≤ cursor.remaining
    · simp only [enough, if_true, run_take fits]
      cases (padding policy length).run (cursor.advance length) <;> rfl
    · simp only [enough, if_false]
  · have short : ¬ length + padLength length ≤ cursor.remaining := by omega
    simp only [fits, short, if_false]

theorem run_words :
    words.run cursor =
      match word.run cursor with
      | .error fault next => .error fault next
      | .ok count next =>
          if count.toNat ≤ next.remaining / 4 then
            .ok (.wire (next.rest.take (4 * count.toNat))) (next.advance (4 * count.toNat))
          else .error (.arrayTooLong count.toNat next.remaining) next := by
  rw [words, EStateM.run_bind]
  cases word.run cursor with
  | error fault next => rfl
  | ok count next =>
      have four : max 4 1 = 4 := rfl
      simp only [EStateM.run_bind, run_checkCount, four]
      by_cases enough : count.toNat ≤ next.remaining / 4
      · have inside : 4 * count.toNat ≤ next.remaining := by omega
        simp only [enough, if_true, run_take inside, EStateM.run_pure]
      · simp only [enough, if_false]

theorem run_bool :
    bool.run cursor =
      match word.run cursor with
      | .error fault next => .error fault next
      | .ok value next =>
          if value.toNat ≤ 1 then .ok (value == 1) next else .error (.notBool value) next := by
  rw [bool, EStateM.run_bind]
  cases word.run cursor with
  | error fault next => rfl
  | ok value next =>
      simp only [EStateM.run_bind, run_ensure]
      by_cases small : value.toNat ≤ 1
      · simp only [small, if_true, EStateM.run_pure]
      · simp only [small, if_false]

/-! ## Verdicts -/

variable {α β : Type}

/-- The value or the fault, wherever the reading stops. -/
def verdict (reading : Reading α) (cursor : Cursor) : Except Fault α :=
  match reading.run cursor with
  | .ok value _ => .ok value
  | .error fault _ => .error fault

theorem verdict_eq_error_iff {reading : Reading α} {fault : Fault} :
    reading.verdict cursor = .error fault ↔
      ∃ stopped, reading.run cursor = .error fault stopped := by
  rw [verdict]
  cases reading.run cursor <;> simp

theorem verdict_bind {first : Reading α} {second : α → Reading β} :
    (first >>= second).verdict cursor =
      match first.run cursor with
      | .ok value next => (second value).verdict next
      | .error fault _ => .error fault := by
  rw [verdict, EStateM.run_bind]
  cases first.run cursor <;> rfl

theorem verdict_bind_of_error {first : Reading α} {fault : Fault}
    (failed : first.verdict cursor = .error fault) (second : α → Reading β) :
    (first >>= second).verdict cursor = .error fault := by
  rcases verdict_eq_error_iff.mp failed with ⟨stopped, ran⟩
  rw [verdict_bind, ran]

theorem run_ofExcept (result : Except Fault α) :
    EStateM.run (MonadExcept.ofExcept result) cursor =
      match result with
      | .ok value => .ok value cursor
      | .error fault => .error fault cursor := by
  cases result <;> rfl

/-! ## Arrays

An array is its count, which is checked, and then one element after the other. -/

/-- Elements `index`, `index + 1` and so on, `count` of them. -/
def sequence (item : Nat → Reading α) (index count : Nat) : Reading (List α) :=
  fun cursor => (elements item index count cursor).result

theorem sequence_succ (item : Nat → Reading α) (index count : Nat) :
    sequence item index (count + 1) = do
      let value ← item index
      return value :: (← sequence item (index + 1) count) := by
  funext cursor
  change (elements item index (count + 1) cursor).result = EStateM.run _ cursor
  rw [EStateM.run_bind, elements]
  cases (item index).run cursor with
  | error fault stopped => rfl
  | ok value next =>
      have later : (sequence item (index + 1) count).run next =
          (elements item (index + 1) count next).result := rfl
      simp only [EStateM.run_bind, later]
      rcases elements item (index + 1) count next with ⟨items, _ | fault, final⟩ <;> rfl

theorem array_eq (minimum : Nat) (item : Nat → Reading α) :
    array minimum item = (do
      let count ← word
      checkCount count.toNat minimum
      sequence item 0 count.toNat) := by
  funext cursor
  change (arrayProgress minimum item cursor).result = EStateM.run _ cursor
  rw [arrayProgress, EStateM.run_bind, EStateM.run_bind]
  cases word.run cursor with
  | error fault stopped => rfl
  | ok count next =>
      simp only [EStateM.run_bind]
      cases (checkCount count.toNat minimum).run next <;> rfl

theorem fixedArray_eq (count minimum : Nat) (item : Nat → Reading α) :
    fixedArray count minimum item = (do
      checkCount count minimum
      sequence item 0 count) := by
  funext cursor
  change (fixedArrayProgress count minimum item cursor).result = EStateM.run _ cursor
  rw [fixedArrayProgress, EStateM.run_bind]
  cases (checkCount count minimum).run cursor <;> rfl

end RpcWire.Reading
