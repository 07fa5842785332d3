import RpcWire.Proofs.Received
import RpcWire.Reading.Run

namespace RpcWire

/-! # What a reading accepts

A form says which value stands in which bytes, in front of which others. A
reading accepts a form when it yields a value exactly where the form holds, and
then has used up just the bytes of the form. The form of a compound reading
follows from those of its parts. -/

theorem Bytes.firstNonZero_eq_none_of_length {bytes : Bytes} {count : Nat}
    (length : bytes.length = count) :
    bytes.firstNonZero = none ↔ bytes = zeros count := by
  rw [firstNonZero_eq_none_iff, length]

theorem Cursor.remaining_of_rest {cursor : Cursor} {taken left : Bytes}
    (split : cursor.rest = taken ++ left) : cursor.remaining = taken.length + left.length := by
  rw [← Cursor.length_rest, split, List.length_append]

theorem Cursor.rest_behind {cursor : Cursor} {taken left : Bytes}
    (split : cursor.rest = taken ++ left) : (cursor.advance taken.length).rest = left := by
  rw [Cursor.rest_advance, split, List.drop_left]

theorem Cursor.remaining_behind {cursor : Cursor} {taken left : Bytes}
    (split : cursor.rest = taken ++ left) :
    (cursor.advance taken.length).remaining = left.length := by
  rw [← Cursor.length_rest, Cursor.rest_behind split]

namespace Reading

variable {α β : Type}

def Accepts (reading : Reading α) (form : α → Bytes → Bytes → Prop) : Prop :=
  ∀ cursor value next, reading.run cursor = .ok value next ↔
    ∃ taken left, cursor.rest = taken ++ left ∧ form value taken left ∧
      next = cursor.advance taken.length

theorem Accepts.congr {reading : Reading α} {form other : α → Bytes → Bytes → Prop}
    (accepts : reading.Accepts form)
    (same : ∀ value taken left, form value taken left ↔ other value taken left) :
    reading.Accepts other := by
  intro cursor value next
  simp only [accepts cursor value next, same]

theorem accepts_pure (value : α) :
    Accepts (pure value) fun found taken _ => found = value ∧ taken = [] := by
  intro cursor found next
  rw [EStateM.run_pure]
  constructor
  · intro run
    cases run
    exact ⟨[], cursor.rest, rfl, ⟨rfl, rfl⟩, by simp [Cursor.advance_zero]⟩
  · intro form
    rcases form with ⟨_, left, _, ⟨rfl, rfl⟩, rfl⟩
    rw [List.length_nil, Cursor.advance_zero]

/-- Two readings in sequence, the second of which may depend on what the first
yields. -/
theorem Accepts.bind {first : Reading α} {form : α → Bytes → Bytes → Prop}
    {second : α → Reading β} {later : α → β → Bytes → Bytes → Prop}
    (acceptsFirst : first.Accepts form)
    (acceptsSecond : ∀ value, (second value).Accepts (later value)) :
    (first >>= second).Accepts fun value taken left =>
      ∃ middle front back, taken = front ++ back ∧ form middle front (back ++ left) ∧
        later middle value back left := by
  intro cursor value next
  rw [EStateM.run_bind]
  constructor
  · intro run
    cases ran : first.run cursor with
    | error fault stopped =>
        rw [ran] at run
        cases run
    | ok middle between =>
        rw [ran] at run
        rcases (acceptsFirst _ _ _).mp ran with ⟨front, others, split, formFirst, rfl⟩
        rcases (acceptsSecond _ _ _ _).mp run with ⟨back, left, splitOthers, formSecond, rfl⟩
        -- The second reading starts at what the first has left.
        rw [Cursor.rest_behind split] at splitOthers
        subst splitOthers
        refine ⟨front ++ back, left, ?_, ⟨middle, front, back, rfl, formFirst, formSecond⟩, ?_⟩
        · rw [split, List.append_assoc]
        · rw [Cursor.advance_advance, List.length_append]
  · intro form
    rcases form with ⟨_, left, split, ⟨middle, front, back, rfl, formFirst, formSecond⟩, rfl⟩
    rw [List.append_assoc] at split
    have ran := (acceptsFirst cursor middle _).mpr ⟨front, back ++ left, split, formFirst, rfl⟩
    rw [ran]
    apply (acceptsSecond _ _ _ _).mpr
    refine ⟨back, left, ?_, formSecond, ?_⟩
    · exact Cursor.rest_behind split
    · rw [Cursor.advance_advance, List.length_append]

theorem Accepts.map {reading : Reading α} {form : α → Bytes → Bytes → Prop}
    (accepts : reading.Accepts form) (wrap : α → β) :
    Accepts (do return wrap (← reading)) fun value taken left =>
      ∃ content, value = wrap content ∧ form content taken left := by
  have sequence := accepts.bind fun content => accepts_pure (wrap content)
  refine sequence.congr fun value taken left => ?_
  constructor
  · intro form
    rcases form with ⟨content, front, back, rfl, holds, rfl, rfl⟩
    rw [List.append_nil]
    exact ⟨content, rfl, holds⟩
  · intro form
    rcases form with ⟨content, rfl, holds⟩
    exact ⟨content, taken, [], (List.append_nil _).symm, holds, rfl, rfl⟩

/-! ## Readings that take nothing -/

theorem accepts_ensure (condition : Prop) [Decidable condition] (fault : Fault) :
    (ensure condition fault).Accepts fun _ taken _ => condition ∧ taken = [] := by
  by_cases holds : condition
  · have same : ensure condition fault = pure () := if_pos holds
    rw [same]
    exact (accepts_pure ()).congr fun _ taken _ => by simp [holds]
  · intro cursor found next
    rw [run_ensure, if_neg holds]
    constructor
    · intro run
      cases run
    · intro form
      rcases form with ⟨_, _, _, ⟨impossible, _⟩, _⟩
      exact absurd impossible holds

theorem accepts_ofExcept (result : Except Fault α) :
    Accepts (MonadExcept.ofExcept result) fun value taken _ =>
      result = .ok value ∧ taken = [] := by
  cases result with
  | ok value =>
      exact (accepts_pure value).congr fun found taken _ => by
        simp [eq_comm]
  | error fault =>
      intro cursor value next
      constructor
      · intro run
        cases run
      · intro form
        rcases form with ⟨_, _, _, ⟨impossible, _⟩, _⟩
        cases impossible

/-! ## Numbers and data -/

theorem accepts_word (strict : Bool) :
    word.Accepts fun value taken _ => (Layout.word value).Matches strict taken := by
  intro cursor value next
  rw [run_word]
  constructor
  · intro run
    by_cases enough : 4 ≤ cursor.remaining
    · rw [if_pos enough] at run
      cases run
      have four : (cursor.rest.take 4).length = 4 := by
        rw [List.length_take, Cursor.length_rest]
        omega
      refine ⟨cursor.rest.take 4, cursor.rest.drop 4, (List.take_append_drop _ _).symm, ?_, ?_⟩
      · exact Layout.matches_word_iff.mpr (Word.toBytes_ofBytes four).symm
      · rw [four]
    · rw [if_neg enough] at run
      cases run
  · intro form
    rcases form with ⟨taken, left, split, fills, rfl⟩
    rcases Layout.matches_word_iff.mp fills with rfl
    have remaining := Cursor.remaining_of_rest split
    have front : cursor.rest.take 4 = Word.toBytes value := by
      rw [split]
      rfl
    rw [Word.length_toBytes] at remaining
    rw [if_pos (by omega), front, Word.ofBytes_toBytes, Word.length_toBytes]

theorem accepts_tag (strict : Bool) (Kind : Type) [Tag Kind] [DecidableEq Kind]
    (fault : UInt32 → Fault) :
    (tag Kind fault).Accepts fun kind taken _ => (Layout.tag kind).Matches strict taken := by
  have accepts := (accepts_word strict).bind fun value =>
    accepts_ofExcept (Tag.ofWord fault value : Except Fault Kind)
  refine accepts.congr fun kind taken left => ?_
  have known {value : UInt32} :
      (Tag.ofWord fault value : Except Fault Kind) = .ok kind ↔ value = Tag.toWord kind := by
    rw [← Tag.ofWord?_eq_some_iff, Tag.ofWord]
    cases (Tag.ofWord? value : Option Kind) <;> simp
  constructor
  · intro form
    rcases form with ⟨value, front, back, rfl, fills, found, rfl⟩
    rw [known.mp found] at fills
    rwa [List.append_nil]
  · intro fills
    exact ⟨Tag.toWord kind, taken, [], (List.append_nil _).symm, fills, known.mpr rfl, rfl⟩

/-- A tag and the arm that it selects. -/
theorem accepts_tagged {strict : Bool} {Kind : Type} [Tag Kind] [DecidableEq Kind]
    (fault : UInt32 → Fault) {arm : Kind → Reading α} {kindOf : α → Kind}
    {armLayout : α → Layout} {others : α → Bytes → Prop}
    (accepts : ∀ kind, (arm kind).Accepts fun value taken left => kindOf value = kind ∧
      (armLayout value).Matches strict taken ∧ others value left) :
    (tag Kind fault >>= arm).Accepts fun value taken left =>
      (Layout.tag (kindOf value) ++ armLayout value).Matches strict taken ∧
        others value left := by
  have sequence := (accepts_tag strict Kind fault).bind accepts
  refine sequence.congr fun value taken left => ?_
  rw [Layout.matches_append_iff]
  constructor
  · intro form
    rcases form with ⟨kind, front, back, rfl, fillsTag, rfl, fillsArm, holds⟩
    exact ⟨⟨front, back, rfl, fillsTag, fillsArm⟩, holds⟩
  · intro form
    rcases form with ⟨⟨front, back, rfl, fillsTag, fillsArm⟩, holds⟩
    exact ⟨kindOf value, front, back, rfl, fillsTag, rfl, fillsArm, holds⟩

theorem accepts_padding (policy : Policy) (length : Nat) :
    (padding policy length).Accepts fun _ taken _ =>
      (Layout.padding length).Matches policy.strictPadding taken := by
  intro cursor value next
  rw [run_padding]
  -- The first byte that is not zero is looked for in the bytes that are taken.
  have clean {taken : Bytes} (sameLength : taken.length = padLength length) :
      (if policy.strictPadding then taken.firstNonZero else none) = none ↔
        (Layout.padding length).Matches policy.strictPadding taken := by
    rw [Layout.matches_padding_iff, ← Bytes.firstNonZero_eq_none_of_length sameLength]
    cases policy.strictPadding <;> simp [sameLength]
  constructor
  · intro run
    by_cases enough : padLength length ≤ cursor.remaining
    · have sameLength : (cursor.rest.take (padLength length)).length = padLength length := by
        rw [List.length_take, Cursor.length_rest]
        omega
      rw [if_pos enough] at run
      refine ⟨_, _, (List.take_append_drop (padLength length) _).symm,
        (clean sameLength).mp ?_, ?_⟩
      all_goals
        revert run
        generalize (if policy.strictPadding = true then _ else _) = found
        intro run
        cases found with
        | none => cases run; simp [sameLength]
        | some found => cases run
    · rw [if_neg enough] at run
      cases run
  · intro form
    rcases form with ⟨taken, left, split, fills, rfl⟩
    have sameLength : taken.length = padLength length := by
      rw [fills.length_eq, Layout.length_padding]
    have remaining := Cursor.remaining_of_rest split
    rw [if_pos (by omega), split, List.take_left' sameLength, (clean sameLength).mpr fills,
      sameLength]

theorem accepts_fixed (policy : Policy) (length : Nat) :
    (fixed policy length).Accepts fun data taken _ => data.length = length ∧
      (Layout.data data ++ Layout.padding length).Matches policy.strictPadding taken := by
  intro cursor data next
  rw [run_fixed]
  constructor
  · intro run
    by_cases enough : length + padLength length ≤ cursor.remaining
    · rw [if_pos enough] at run
      cases padded : (padding policy length).run (cursor.advance length) with
      | error fault stopped =>
          rw [padded] at run
          cases run
      | ok _ final =>
          rw [padded] at run
          cases run
          rcases (accepts_padding policy length _ _ _).mp padded with
            ⟨pad, left, split, fills, rfl⟩
          have sameLength : (cursor.rest.take length).length = length := by
            rw [List.length_take, Cursor.length_rest]
            omega
          rw [Cursor.rest_advance] at split
          refine ⟨cursor.rest.take length ++ pad, left, ?_, ⟨sameLength, ?_⟩, ?_⟩
          · rw [List.append_assoc, ← split, List.take_append_drop]
          · exact (Layout.matches_data _).append fills
          · rw [Cursor.advance_advance, List.length_append, sameLength]
    · rw [if_neg enough] at run
      cases run
  · intro form
    rcases form with ⟨_, left, split, ⟨sameLength, fills⟩, rfl⟩
    rcases Layout.matches_append_iff.mp fills with ⟨_, pad, rfl, fillsData, fillsPad⟩
    rcases Layout.matches_data_iff.mp fillsData with rfl
    have padSize : pad.length = padLength length := by
      rw [fillsPad.length_eq, Layout.length_padding]
    have remaining := Cursor.remaining_of_rest split
    rw [List.length_append] at remaining
    rw [List.append_assoc] at split
    have padded := (accepts_padding policy length (cursor.advance length) () _).mpr
      ⟨pad, left, by rw [Cursor.rest_advance, split, List.drop_left' sameLength], fillsPad, rfl⟩
    rw [if_pos (by omega), padded, split, List.take_left' sameLength, Cursor.advance_advance,
      List.length_append, sameLength]

/-- Where data behind a length word is taken at all, it is taken as data of that
length. -/
theorem run_counted_eq_ok_iff (policy : Policy) {cursor next : Cursor} {data : Bytes} :
    (counted policy).run cursor = .ok data next ↔
      (word >>= fun length => fixed policy length.toNat).run cursor = .ok data next := by
  rw [run_counted, EStateM.run_bind]
  cases word.run cursor with
  | error fault stopped => rfl
  | ok length between =>
      simp only [run_fixed]
      by_cases enough : length.toNat + padLength length.toNat ≤ between.remaining
      · rw [if_pos enough, if_pos enough]
      · rw [if_neg enough, if_neg enough]
        constructor <;> intro run <;> cases run

theorem accepts_counted (policy : Policy) :
    (counted policy).Accepts fun data taken _ => data.length < UInt32.size ∧
      (Layout.counted data).Matches policy.strictPadding taken := by
  have accepts := (accepts_word policy.strictPadding).bind fun length =>
    accepts_fixed policy length.toNat
  have sequence : (counted policy).Accepts _ := fun cursor data next =>
    (run_counted_eq_ok_iff policy).trans (accepts cursor data next)
  refine sequence.congr fun data taken left => ?_
  rw [Layout.counted, List.append_assoc, Layout.matches_append_iff]
  constructor
  · intro form
    rcases form with ⟨length, front, back, rfl, fillsWord, sameLength, fillsData⟩
    have word : UInt32.ofNat data.length = length := by
      rw [sameLength, UInt32.ofNat_toNat]
    rw [word, sameLength]
    exact ⟨length.toNat_lt, front, back, rfl, fillsWord, fillsData⟩
  · intro form
    rcases form with ⟨short, front, back, rfl, fillsWord, fillsData⟩
    have sameLength : (UInt32.ofNat data.length).toNat = data.length :=
      UInt32.toNat_ofNat_of_lt' short
    refine ⟨UInt32.ofNat data.length, front, back, rfl, fillsWord, sameLength.symm, ?_⟩
    rwa [sameLength]

/-- Whole words in front of the cursor are taken as a list of that many words. -/
theorem matches_words_wire {strict : Bool} {count : UInt32} {front back : Bytes}
    (fillsWord : (Layout.word count).Matches strict front)
    (size : back.length = 4 * count.toNat) :
    (Words.wire back).received = .wire back ∧ (Words.wire back).count < UInt32.size ∧
      (Layout.words (.wire back)).Matches strict (front ++ back) := by
  have whole : 4 ∣ back.length := size ▸ Nat.dvd_mul_right 4 _
  have sameCount : (Words.wire back).count = count.toNat := by
    rw [Words.count_wire, size]
    omega
  refine ⟨Words.received_wire whole, sameCount ▸ count.toNat_lt, ?_⟩
  rw [Layout.words, sameCount, UInt32.ofNat_toNat, Words.toBytes_wire whole]
  exact fillsWord.append (Layout.matches_data _)

theorem accepts_words (strict : Bool) :
    words.Accepts fun values taken _ => values.received = values ∧
      values.count < UInt32.size ∧ (Layout.words values).Matches strict taken := by
  intro cursor values next
  rw [run_words]
  constructor
  · intro run
    cases ran : word.run cursor with
    | error fault stopped =>
        rw [ran] at run
        cases run
    | ok count between =>
        rw [ran] at run
        rcases (accepts_word strict _ _ _).mp ran with ⟨front, others, split, fillsWord, rfl⟩
        by_cases enough : count.toNat ≤ (cursor.advance front.length).remaining / 4
        · simp only [if_pos enough] at run
          cases run
          have remaining := Cursor.remaining_of_rest split
          rw [Cursor.remaining_advance] at enough
          have size : (others.take (4 * count.toNat)).length = 4 * count.toNat := by
            rw [List.length_take]
            omega
          rw [Cursor.rest_behind split, split]
          refine ⟨front ++ others.take (4 * count.toNat), others.drop (4 * count.toNat), ?_,
            matches_words_wire fillsWord size, ?_⟩
          · rw [List.append_assoc, List.take_append_drop]
          · rw [Cursor.advance_advance, List.length_append, size]
        · simp only [if_neg enough] at run
          cases run
  · intro form
    rcases form with ⟨_, left, split, ⟨received, short, fills⟩, rfl⟩
    rcases Layout.matches_append_iff.mp fills with ⟨front, back, rfl, fillsWord, fillsData⟩
    rcases Layout.matches_data_iff.mp fillsData with rfl
    rw [List.append_assoc] at split
    have ran := (accepts_word strict cursor _ _).mpr
      ⟨front, values.toBytes ++ left, split, fillsWord, rfl⟩
    have count : (UInt32.ofNat values.count).toNat = values.count :=
      UInt32.toNat_ofNat_of_lt' short
    have size : values.toBytes.length = 4 * values.count := values.length_toBytes
    have remaining := Cursor.remaining_of_rest split
    rw [List.length_append] at remaining
    have enough : values.count ≤ (cursor.advance front.length).remaining / 4 := by
      rw [Cursor.remaining_advance]
      omega
    rw [ran]
    simp only [count, if_pos enough]
    rw [Cursor.rest_behind split, List.take_left' size,
      Cursor.advance_advance, List.length_append, size]
    exact congrArg (EStateM.Result.ok · _) received

theorem accepts_tail : tail.Accepts fun data taken left => data = taken ∧ left = [] := by
  intro cursor data next
  rw [run_tail]
  constructor
  · intro run
    cases run
    exact ⟨cursor.rest, [], (List.append_nil _).symm, ⟨rfl, rfl⟩, by rw [Cursor.length_rest]⟩
  · intro form
    rcases form with ⟨taken, _, split, ⟨rfl, rfl⟩, rfl⟩
    rw [List.append_nil] at split
    rw [split, ← Cursor.length_rest, split]

end Reading

end RpcWire
