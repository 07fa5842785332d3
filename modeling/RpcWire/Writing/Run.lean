import RpcWire.Writing

namespace RpcWire.Writing

/-! # What a writing does

The run of each basic writing. All of them come down to one piece of bytes that
is written whole or not at all. -/

variable {region : Region}

theorem run_reserve (count : Nat) :
    (reserve count).run region =
      if count ≤ region.free.length then .ok () region
      else .error (.regionFull (region.written.length + count) region.capacity) region := by
  rw [reserve, EStateM.run_bind, EStateM.run_get]
  by_cases room : count ≤ region.free.length
  · simp only [room, if_true, EStateM.run_pure]
  · simp only [room, if_false, EStateM.run_throw]

theorem run_raw (bytes : Bytes) :
    (raw bytes).run region =
      if bytes.length ≤ region.free.length then .ok () (region.extend bytes)
      else .error (.regionFull (region.written.length + bytes.length) region.capacity)
        region := by
  rw [raw, EStateM.run_bind, run_reserve]
  by_cases fits : bytes.length ≤ region.free.length
  · simp only [fits, if_true]
    rfl
  · simp only [fits, if_false]

theorem run_countWord (count : Nat) :
    (countWord count).run region =
      if count < UInt32.size then .ok (UInt32.ofNat count) region
      else .error (.countTooWide count) region := by
  unfold countWord
  split <;> rfl

/-! ## Parts behind a reservation -/

/-- These bytes are written wherever there is room for them. -/
def Fills (writing : Writing Unit) (bytes : Bytes) : Prop :=
  ∀ region : Region, bytes.length ≤ region.free.length →
    writing.run region = .ok () (region.extend bytes)

theorem fills_put (bytes : Bytes) : (put bytes).Fills bytes := fun _ _ => rfl

theorem fills_raw (bytes : Bytes) : (raw bytes).Fills bytes := by
  intro region room
  rw [run_raw, if_pos room]

/-- What the first part leaves is enough for the second. -/
theorem Fills.bind {first second : Writing Unit} {front back : Bytes}
    (fillsFront : first.Fills front) (fillsBack : second.Fills back) :
    (first >>= fun _ => second).Fills (front ++ back) := by
  intro region room
  rw [List.length_append] at room
  have frontFits : front.length ≤ region.free.length := by omega
  have backFits : back.length ≤ (region.extend front).free.length := by
    rw [Region.extend, List.length_drop]
    omega
  rw [EStateM.run_bind, fillsFront region frontFits]
  exact (fillsBack _ backFits).trans (by rw [Region.extend_extend])

/-- Behind a reservation of just their bytes all parts are written or none. -/
theorem Fills.reserve_eq_raw {writing : Writing Unit} {bytes : Bytes} {count : Nat}
    (fills : writing.Fills bytes) (exact : bytes.length = count) :
    (do reserve count; writing) = raw bytes := by
  funext region
  change (do reserve count; writing).run region = (raw bytes).run region
  rw [EStateM.run_bind, run_reserve, run_raw, exact]
  by_cases room : count ≤ region.free.length
  · simp only [room, if_true]
    exact fills region (exact ▸ room)
  · simp only [room, if_false]

theorem double_eq_raw (value : UInt64) : double value = raw (Word.doubleToBytes value) :=
  ((fills_raw _).bind (fills_raw _)).reserve_eq_raw rfl

theorem fills_double (value : UInt64) : (double value).Fills (Word.doubleToBytes value) := by
  rw [double_eq_raw]
  exact fills_raw _

/-- Data and zero bytes up to a multiple of four. -/
def padded (data : Bytes) : Bytes := data ++ Bytes.zeros (padLength data.length)

example : padded [1, 2, 3] = [1, 2, 3, 0] := rfl

@[simp] theorem length_padded (data : Bytes) :
    (padded data).length = data.length + padLength data.length := by
  simp [padded]

theorem fixed_eq_raw (data : Bytes) : fixed data = raw (padded data) :=
  ((fills_put _).bind (fills_put _)).reserve_eq_raw (length_padded data)

theorem fills_fixed (data : Bytes) : (fixed data).Fills (padded data) := by
  rw [fixed_eq_raw]
  exact fills_raw (padded data)

theorem fills_forM_word (values : Words) : (values.toList.forM word).Fills values.toBytes := by
  rw [Words.toBytes]
  induction values.toList with
  | nil =>
      intro region _
      simp [Region.extend]
  | cons first rest induction => exact (fills_raw (Word.toBytes first)).bind induction

theorem run_counted (data : Bytes) :
    (counted data).run region =
      if data.length < UInt32.size then
        (raw (Word.toBytes (UInt32.ofNat data.length) ++ padded data)).run region
      else .error (.countTooWide data.length) region := by
  rw [counted, EStateM.run_bind, run_countWord]
  by_cases short : data.length < UInt32.size
  · have size : (Word.toBytes (UInt32.ofNat data.length) ++ padded data).length =
        countedSize data.length := by
      rw [List.length_append, length_padded, Word.length_toBytes, countedSize]
      omega
    simp only [short, if_true]
    rw [← ((fills_raw _).bind (fills_fixed data)).reserve_eq_raw size]
    rfl
  · simp only [short, if_false]

theorem run_words (values : Words) :
    (words values).run region =
      if values.count < UInt32.size then
        (raw (Word.toBytes (UInt32.ofNat values.count) ++ values.toBytes)).run region
      else .error (.countTooWide values.count) region := by
  rw [words, EStateM.run_bind, run_countWord]
  by_cases short : values.count < UInt32.size
  · have size : (Word.toBytes (UInt32.ofNat values.count) ++ values.toBytes).length =
        4 + 4 * (UInt32.ofNat values.count).toNat := by
      rw [List.length_append, Word.length_toBytes, Words.length_toBytes,
        UInt32.toNat_ofNat_of_lt' short]
    simp only [short, if_true]
    rw [← ((fills_raw _).bind (fills_forM_word values)).reserve_eq_raw size]
    rfl
  · simp only [short, if_false]

theorem run_array (item : α → Writing Unit) (items : List α) :
    (array item items).run region =
      if items.length < UInt32.size then
        match (word (UInt32.ofNat items.length)).run region with
        | .ok () next => (fixedArray item items).run next
        | .error fault next => .error fault next
      else .error (.countTooWide items.length) region := by
  rw [array, EStateM.run_bind, run_countWord]
  by_cases short : items.length < UInt32.size
  · simp only [short, if_true, EStateM.run_bind]
    cases (word (UInt32.ofNat items.length)).run region <;> rfl
  · simp only [short, if_false]

end RpcWire.Writing
