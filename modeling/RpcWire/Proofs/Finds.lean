import RpcWire.Proofs.Accepts
import RpcWire.Proofs.Writes

namespace RpcWire.Reading

/-! # What a reading finds

When the bytes that come next are known, so is what a reading makes of them,
whatever stands behind. Elements of an array are found where there are enough
bytes for the number of them that is checked beforehand. -/

variable {α β γ : Type} {good : α → Prop} {later : β → Prop} {bytes front back : Bytes}

/-- Wherever these bytes come next, the reading takes just them and yields a good
value. -/
def Finds (reading : Reading α) (bytes : Bytes) (good : α → Prop) : Prop :=
  ∀ ⦃cursor left⦄, cursor.rest = bytes ++ left →
    ∃ value, good value ∧ reading.run cursor = .ok value (cursor.advance bytes.length)

theorem Accepts.finds {reading : Reading α} {form : α → Bytes → Bytes → Prop}
    (accepts : reading.Accepts form) (value : α) (holds : ∀ left, form value bytes left)
    (isGood : good value) : reading.Finds bytes good := by
  intro cursor left split
  exact ⟨value, isGood, (accepts _ _ _).mpr ⟨bytes, left, split, holds left, rfl⟩⟩

theorem finds_pure {value : α} (isGood : good value) : Finds (pure value) [] good :=
  fun _ _ _ => ⟨value, isGood, rfl⟩

/-- The second reading finds its bytes where the first has stopped. -/
theorem Finds.bind {first : Reading α} {second : α → Reading β} (finds : first.Finds front good)
    (findsLater : ∀ value, good value → (second value).Finds back later) :
    (first >>= second).Finds (front ++ back) later := by
  intro cursor left split
  rw [List.append_assoc] at split
  rcases finds split with ⟨value, isGood, ran⟩
  rcases findsLater value isGood (Cursor.rest_behind split) with ⟨found, isLater, ranLater⟩
  rw [Cursor.advance_advance] at ranLater
  refine ⟨found, isLater, ?_⟩
  rw [EStateM.run_bind, ran, List.length_append]
  exact ranLater

theorem Finds.map {reading : Reading α} (finds : reading.Finds bytes good) {wrap : α → β}
    (isLater : ∀ value, good value → later (wrap value)) :
    Finds (do return wrap (← reading)) bytes later := by
  rw [← List.append_nil bytes]
  exact finds.bind fun value isGood => finds_pure (isLater value isGood)

theorem finds_word (value : UInt32) : word.Finds (Word.toBytes value) (value = ·) :=
  (accepts_word true).finds value (fun _ => Layout.matches_word value) rfl

theorem finds_double (value : UInt64) : double.Finds (Word.doubleToBytes value) (value = ·) := by
  intro cursor left split
  have remaining := Cursor.remaining_of_rest split
  rw [Word.length_doubleToBytes] at remaining
  have high : cursor.rest.take 4 =
      Word.toBytes (UInt32.ofNat (value.toNat / UInt32.size)) := by
    rw [split]
    rfl
  have low : (cursor.rest.drop 4).take 4 = Word.toBytes (UInt32.ofNat value.toNat) := by
    rw [split]
    rfl
  refine ⟨value, rfl, ?_⟩
  rw [run_double, if_pos (by omega), high, low, Word.ofBytes_toBytes, Word.ofBytes_toBytes,
    Word.double_halves, Word.length_doubleToBytes]

theorem finds_bool (value : Bool) :
    bool.Finds (Word.toBytes (if value then 1 else 0)) (value = ·) := by
  intro cursor left split
  rcases finds_word _ split with ⟨_, rfl, ran⟩
  refine ⟨value, rfl, ?_⟩
  rw [run_bool, ran]
  cases value <;> rfl

theorem finds_counted (policy : Policy) {data : Bytes} (short : data.length < UInt32.size) :
    (counted policy).Finds (Word.toBytes (UInt32.ofNat data.length) ++ Writing.padded data)
      (data = ·) := by
  rw [← Layout.written_counted]
  exact (accepts_counted policy).finds data (fun _ => ⟨short, Layout.matches_written _ _⟩) rfl

theorem finds_fixed (policy : Policy) {length : Nat} {data : Bytes}
    (size : data.length = length) :
    (fixed policy length).Finds (Writing.padded data) (data = ·) := by
  subst size
  have laidOut : (Layout.data data ++ Layout.padding data.length).written =
      Writing.padded data := by
    simp [Writing.padded]
  rw [← laidOut]
  exact (accepts_fixed policy data.length).finds data
    (fun _ => ⟨rfl, Layout.matches_written _ _⟩) rfl

theorem finds_words {values : Words} (short : values.count < UInt32.size) :
    words.Finds (Word.toBytes (UInt32.ofNat values.count) ++ values.toBytes)
      (values.toList = ·.toList) := by
  have laidOut : (Layout.words values.received).written =
      Word.toBytes (UInt32.ofNat values.count) ++ values.toBytes := by
    rw [Layout.written_words, Words.count_received, Words.toBytes_received]
  rw [← laidOut]
  apply (accepts_words true).finds values.received
  · intro left
    rw [Words.count_received]
    exact ⟨congrArg Words.wire values.toBytes_received, short, Layout.matches_written _ _⟩
  · exact values.toList_received.symm

/-- There is room for the elements in front of which their number is checked. -/
theorem finds_checked {reading : Reading α} (finds : reading.Finds bytes good)
    {count minimum : Nat} (room : count * max minimum 1 ≤ bytes.length) :
    Finds (do checkCount count minimum; reading) bytes good := by
  intro cursor left split
  have remaining := Cursor.remaining_of_rest split
  -- What is left holds at least the elements, whatever comes behind them.
  have enough : count ≤ cursor.remaining / max minimum 1 := by
    apply (Nat.le_div_iff_mul_le (by omega)).mpr
    omega
  rw [EStateM.run_bind, run_checkCount, if_pos enough]
  exact finds split

section

variable {item : Nat → Reading α} {encoding : γ → Bytes} {same : γ → α → Prop} {items : List γ}
  (each : ∀ value ∈ items, ∀ index, (item index).Finds (encoding value) (same value))
include each

theorem finds_sequence (index : Nat) :
    (sequence item index items.length).Finds (items.flatMap encoding)
      (List.Forall₂ same items) := by
  induction items generalizing index with
  | nil => exact finds_pure .nil
  | cons first rest induction =>
      have later := induction (fun value member => each value (List.mem_cons_of_mem _ member))
        (index + 1)
      rw [List.length_cons, sequence_succ, List.flatMap_cons]
      apply (each first List.mem_cons_self index).bind
      intro value isSame
      exact later.map fun found areSame => .cons isSame areSame

variable {minimum : Nat} (least : ∀ value ∈ items, max minimum 1 ≤ (encoding value).length)
include least

omit each in
theorem length_mul_le : items.length * max minimum 1 ≤ (items.flatMap encoding).length := by
  induction items with
  | nil => simp
  | cons first rest induction =>
      have later := induction fun value member => least value (List.mem_cons_of_mem _ member)
      have here := least first List.mem_cons_self
      rw [List.length_cons, List.flatMap_cons, List.length_append, Nat.succ_mul]
      omega

theorem finds_fixedArray {count : Nat} (size : items.length = count) :
    (fixedArray count minimum item).Finds (items.flatMap encoding)
      (List.Forall₂ same items) := by
  subst size
  rw [fixedArray_eq]
  exact finds_checked (finds_sequence each 0) (length_mul_le least)

theorem finds_array (short : items.length < UInt32.size) :
    (array minimum item).Finds
      (Word.toBytes (UInt32.ofNat items.length) ++ items.flatMap encoding)
      (List.Forall₂ same items) := by
  rw [array_eq]
  apply (finds_word _).bind
  rintro _ rfl
  rw [UInt32.toNat_ofNat_of_lt' short]
  exact finds_checked (finds_sequence each 0) (length_mul_le least)

end

end RpcWire.Reading
