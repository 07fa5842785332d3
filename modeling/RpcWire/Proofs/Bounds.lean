import RpcWire.Proofs.Faults
import RpcWire.ReadScript

namespace RpcWire

/-! # The bounds of a reader

A cursor does not guard itself, so that it is for the readings to stay within
the data. Each of them is followed in two runs: on a cursor, and on one at the
same place of the same data with anything else behind it. Neither run leaves
the data, and no difference shows between them. -/

namespace Cursor

/-- The bytes that a cursor is there to read. -/
def data (cursor : Cursor) : Bytes := cursor.store.take cursor.size

def Inside (cursor : Cursor) : Prop := cursor.offset ≤ cursor.size

instance (cursor : Cursor) : Decidable cursor.Inside :=
  inferInstanceAs (Decidable (cursor.offset ≤ cursor.size))

/-- The same place of the same data. What lies behind the data may differ. -/
structure Alike (first second : Cursor) : Prop where
  data : second.data = first.data
  offset : second.offset = first.offset

/-- From one place of the data forward to another. -/
structure Proceeds (before after : Cursor) : Prop where
  store : after.store = before.store
  size : after.size = before.size
  forward : before.offset ≤ after.offset
  inside : after.Inside

theorem inside_ofBytes (bytes : Bytes) : (ofBytes bytes).Inside := Nat.zero_le _

theorem data_ofBytes (bytes : Bytes) : (ofBytes bytes).data = bytes := List.take_length

theorem length_data (cursor : Cursor) : cursor.data.length = cursor.size := by
  rw [data, List.length_take, Nat.min_eq_left cursor.size_le]

theorem rest_eq_drop_data (cursor : Cursor) : cursor.rest = cursor.data.drop cursor.offset := by
  rw [rest, next, data, List.drop_take, remaining]

variable {cursor other first second third : Cursor}

namespace Alike

theorem refl (cursor : Cursor) : cursor.Alike cursor := ⟨rfl, rfl⟩

theorem size (alike : cursor.Alike other) : other.size = cursor.size := by
  rw [← length_data, alike.data, length_data]

theorem remaining (alike : cursor.Alike other) : other.remaining = cursor.remaining := by
  rw [Cursor.remaining, alike.size, alike.offset, Cursor.remaining]

theorem rest (alike : cursor.Alike other) : other.rest = cursor.rest := by
  rw [rest_eq_drop_data, alike.data, alike.offset, rest_eq_drop_data]

theorem advance (alike : cursor.Alike other) (count : Nat) :
    (cursor.advance count).Alike (other.advance count) where
  data := alike.data
  offset := by rw [offset_advance, offset_advance, alike.offset]

end Alike

namespace Proceeds

theorem refl (inside : cursor.Inside) : cursor.Proceeds cursor :=
  ⟨rfl, rfl, Nat.le_refl _, inside⟩

theorem trans (earlier : first.Proceeds second) (later : second.Proceeds third) :
    first.Proceeds third where
  store := later.store.trans earlier.store
  size := later.size.trans earlier.size
  forward := Nat.le_trans earlier.forward later.forward
  inside := later.inside

theorem data (proceeds : first.Proceeds second) : second.data = first.data := by
  rw [Cursor.data, proceeds.store, proceeds.size, Cursor.data]

end Proceeds

/-- What remains may be gone over. -/
theorem proceeds_advance (inside : cursor.Inside) {count : Nat}
    (enough : count ≤ cursor.remaining) : cursor.Proceeds (cursor.advance count) where
  store := rfl
  size := rfl
  forward := Nat.le_add_right _ _
  inside := by
    unfold Inside at inside ⊢
    unfold remaining at enough
    rw [offset_advance, size_advance]
    omega

end Cursor

namespace Reading

open Cursor

variable {α β : Type} {start cursor other : Cursor}

/-- Two runs with one outcome, which have gone forward to the same place of the
data. -/
inductive Agrees (start : Cursor) :
    EStateM.Result Fault Cursor α → EStateM.Result Fault Cursor α → Prop
  | yields (value : α) {first second : Cursor} (moved : start.Proceeds first)
      (alike : first.Alike second) : Agrees start (.ok value first) (.ok value second)
  | fails (fault : Fault) {first second : Cursor} (moved : start.Proceeds first)
      (alike : first.Alike second) : Agrees start (.error fault first) (.error fault second)

theorem Agrees.behind {earlier : Cursor} {first second : EStateM.Result Fault Cursor α}
    (moved : earlier.Proceeds start) (agrees : Agrees start first second) :
    Agrees earlier first second := by
  cases agrees with
  | yields value later alike => exact .yields value (moved.trans later) alike
  | fails fault later alike => exact .fails fault (moved.trans later) alike

/-- A reading stays within the data and does not look behind it. -/
def Bounded (reading : Reading α) : Prop :=
  ∀ ⦃cursor other⦄, cursor.Inside → cursor.Alike other →
    Agrees cursor (reading.run cursor) (reading.run other)

/-! ## Steps -/

theorem agrees_stay (inside : cursor.Inside) (alike : cursor.Alike other) (value : α) :
    Agrees cursor (.ok value cursor) (.ok value other) :=
  .yields value (.refl inside) alike

theorem agrees_stop (inside : cursor.Inside) (alike : cursor.Alike other) (fault : Fault) :
    Agrees (α := α) cursor (.error fault cursor) (.error fault other) :=
  .fails fault (.refl inside) alike

theorem agrees_advance (inside : cursor.Inside) (alike : cursor.Alike other) {count : Nat}
    (enough : count ≤ cursor.remaining) (value : α) :
    Agrees cursor (.ok value (cursor.advance count)) (.ok value (other.advance count)) :=
  .yields value (proceeds_advance inside enough) (alike.advance count)

theorem bounded_pure (value : α) : Bounded (pure value) :=
  fun _ _ inside alike => agrees_stay inside alike value

theorem bounded_throw (fault : Fault) : Bounded (throw fault : Reading α) :=
  fun _ _ inside alike => agrees_stop inside alike fault

theorem bounded_ensure (condition : Prop) [Decidable condition] (fault : Fault) :
    (ensure condition fault).Bounded := by
  unfold ensure
  split
  · exact bounded_pure ()
  · exact bounded_throw fault

theorem bounded_ofExcept (result : Except Fault α) : Bounded (MonadExcept.ofExcept result) := by
  cases result with
  | ok value => exact bounded_pure value
  | error fault => exact bounded_throw fault

/-- The second reading starts at corresponding places with the same value. -/
theorem Bounded.bind {first : Reading α} {second : α → Reading β} (front : first.Bounded)
    (back : ∀ value, (second value).Bounded) : (first >>= second).Bounded := by
  intro cursor other inside alike
  have agrees := front inside alike
  rw [EStateM.run_bind, EStateM.run_bind]
  generalize first.run cursor = ran at agrees
  generalize first.run other = ranOther at agrees
  cases agrees with
  | yields value moved alikeNext => exact (back value moved.inside alikeNext).behind moved
  | fails fault moved alikeNext => exact .fails fault moved alikeNext

theorem Bounded.map {reading : Reading α} (bounded : reading.Bounded) (wrap : α → β) :
    Bounded (do return wrap (← reading)) :=
  bounded.bind fun value => bounded_pure (wrap value)

theorem Bounded.recover {first : Reading α} {second : Fault → Reading α} (front : first.Bounded)
    (back : ∀ fault, (second fault).Bounded) : Bounded (tryCatch first second) := by
  intro cursor other inside alike
  have agrees := front inside alike
  rw [run_tryCatch, run_tryCatch]
  generalize first.run cursor = ran at agrees
  generalize first.run other = ranOther at agrees
  cases agrees with
  | yields value moved alikeNext => exact .yields value moved alikeNext
  | fails fault moved alikeNext => exact (back fault moved.inside alikeNext).behind moved

/-- What a caller may ask a reader about itself: where it is, and how many bytes
remain. -/
def look : Reading (Nat × Nat) := do
  let cursor ← get
  return (cursor.offset, cursor.remaining)

theorem bounded_look : look.Bounded := by
  intro cursor other inside alike
  have same : look.run other = .ok (cursor.offset, cursor.remaining) other := by
    rw [← alike.offset, ← alike.remaining]
    rfl
  rw [same]
  exact agrees_stay inside alike _

/-! ## Numbers and data -/

theorem bounded_word : word.Bounded := by
  intro cursor other inside alike
  rw [run_word, run_word, alike.remaining, alike.rest, alike.offset]
  by_cases enough : 4 ≤ cursor.remaining
  · rw [if_pos enough, if_pos enough]
    exact agrees_advance inside alike enough _
  · rw [if_neg enough, if_neg enough]
    exact agrees_stop inside alike _

theorem bounded_double : double.Bounded := by
  intro cursor other inside alike
  rw [run_double, run_double, alike.remaining, alike.rest, alike.offset]
  by_cases enough : 8 ≤ cursor.remaining
  · rw [if_pos enough, if_pos enough]
    exact agrees_advance inside alike enough _
  · rw [if_neg enough, if_neg enough]
    exact agrees_stop inside alike _

theorem bounded_bool : bool.Bounded :=
  bounded_word.bind fun value =>
  (bounded_ensure _ (.notBool value)).bind fun _ =>
  bounded_pure _

theorem bounded_tag (Kind : Type) [Tag Kind] (unknown : UInt32 → Fault) :
    (tag Kind unknown).Bounded :=
  bounded_word.bind fun _ => bounded_ofExcept _

theorem bounded_padding (policy : Policy) (length : Nat) : (padding policy length).Bounded := by
  intro cursor other inside alike
  rw [run_padding, run_padding, alike.remaining, alike.rest, alike.offset]
  by_cases enough : padLength length ≤ cursor.remaining
  · rw [if_pos enough, if_pos enough]
    generalize (if policy.strictPadding = true then _ else _) = found
    cases found with
    | none => exact agrees_advance inside alike enough ()
    | some found => exact agrees_stop inside alike _
  · rw [if_neg enough, if_neg enough]
    exact agrees_stop inside alike _

/-- There is room for the data because there is room for it and its padding. -/
theorem bounded_fixed (policy : Policy) (length : Nat) : (fixed policy length).Bounded := by
  intro cursor other inside alike
  rw [run_fixed, run_fixed, alike.remaining, alike.rest, alike.offset]
  by_cases enough : length + padLength length ≤ cursor.remaining
  · have fits : length ≤ cursor.remaining := by omega
    have moved := proceeds_advance inside fits
    have agrees := bounded_padding policy length moved.inside (alike.advance length)
    rw [if_pos enough, if_pos enough]
    generalize (padding policy length).run (cursor.advance length) = ran at agrees
    generalize (padding policy length).run (other.advance length) = ranOther at agrees
    cases agrees with
    | yields _ later alikeNext => exact .yields _ (moved.trans later) alikeNext
    | fails fault later alikeNext => exact .fails fault (moved.trans later) alikeNext
  · rw [if_neg enough, if_neg enough]
    exact agrees_stop inside alike _

theorem bounded_counted (policy : Policy) : (counted policy).Bounded := by
  intro cursor other inside alike
  have agrees := bounded_word inside alike
  rw [run_counted, run_counted]
  generalize word.run cursor = ran at agrees
  generalize word.run other = ranOther at agrees
  cases agrees with
  | fails fault moved alikeNext => exact .fails fault moved alikeNext
  | @yields length next nextOther moved alikeNext =>
      simp only [alikeNext.remaining, alikeNext.rest]
      by_cases enough : length.toNat + padLength length.toNat ≤ next.remaining
      · have fixed := bounded_fixed policy length.toNat moved.inside alikeNext
        rw [run_fixed, run_fixed, alikeNext.remaining, alikeNext.rest, if_pos enough,
          if_pos enough] at fixed
        rw [if_pos enough, if_pos enough]
        exact fixed.behind moved
      · rw [if_neg enough, if_neg enough]
        exact (agrees_stop moved.inside alikeNext _).behind moved

theorem bounded_checkCount (count minimum : Nat) : (checkCount count minimum).Bounded := by
  intro cursor other inside alike
  rw [run_checkCount, run_checkCount, alike.remaining]
  by_cases enough : count ≤ cursor.remaining / max minimum 1
  · rw [if_pos enough, if_pos enough]
    exact agrees_stay inside alike ()
  · rw [if_neg enough, if_neg enough]
    exact agrees_stop inside alike _

theorem bounded_words : words.Bounded := by
  intro cursor other inside alike
  have agrees := bounded_word inside alike
  rw [run_words, run_words]
  generalize word.run cursor = ran at agrees
  generalize word.run other = ranOther at agrees
  cases agrees with
  | fails fault moved alikeNext => exact .fails fault moved alikeNext
  | @yields count next nextOther moved alikeNext =>
      simp only [alikeNext.remaining, alikeNext.rest]
      by_cases enough : count.toNat ≤ next.remaining / 4
      · have fits : 4 * count.toNat ≤ next.remaining := by omega
        rw [if_pos enough, if_pos enough]
        exact (agrees_advance moved.inside alikeNext fits _).behind moved
      · rw [if_neg enough, if_neg enough]
        exact (agrees_stop moved.inside alikeNext _).behind moved

theorem bounded_tail : tail.Bounded := by
  intro cursor other inside alike
  rw [run_tail, run_tail, alike.remaining, alike.rest]
  exact agrees_advance inside alike (Nat.le_refl _) _

/-! ## Arrays -/

section

variable {item : Nat → Reading α} (each : ∀ index, (item index).Bounded)
include each

theorem bounded_sequence (index count : Nat) : (sequence item index count).Bounded := by
  induction count generalizing index with
  | zero => exact bounded_pure []
  | succ count induction =>
      rw [sequence_succ]
      apply (each index).bind
      intro value
      exact (induction (index + 1)).map (value :: ·)

theorem bounded_array (minimum : Nat) : (array minimum item).Bounded := by
  rw [array_eq]
  exact bounded_word.bind fun count =>
    (bounded_checkCount count.toNat minimum).bind fun _ => bounded_sequence each 0 _

theorem bounded_fixedArray (count minimum : Nat) : (fixedArray count minimum item).Bounded := by
  rw [fixedArray_eq]
  exact (bounded_checkCount count minimum).bind fun _ => bounded_sequence each 0 _

end

end Reading

open Reading

/-! ## The values of a message -/

theorem UnixIdentity.bounded_read (policy : Policy) : (read policy).Bounded :=
  bounded_word.bind fun _ =>
  (bounded_counted policy).bind fun _ =>
  bounded_word.bind fun _ =>
  bounded_word.bind fun _ =>
  bounded_words.bind fun _ =>
  (bounded_ensure _ _).bind fun _ =>
  bounded_pure _

/-- The body is taken before it is read, and read as data of its own. -/
theorem Credential.bounded_read (policy : Policy) : (read policy).Bounded :=
  bounded_word.bind fun _ =>
  (bounded_counted policy).bind fun _ =>
  (bounded_ensure _ _).bind fun _ =>
  bounded_ofExcept _

theorem VersionRange.bounded_read : read.Bounded :=
  bounded_word.bind fun _ =>
  bounded_word.bind fun _ =>
  bounded_pure _

theorem Outcome.bounded_read : read.Bounded := by
  rw [read_eq]
  apply (bounded_tag Kind .unknownAcceptStatus).bind
  intro kind
  cases kind with
  | success => exact bounded_tail.map success
  | programMismatch => exact VersionRange.bounded_read.map programMismatch
  | programUnavailable => exact bounded_pure _
  | procedureUnavailable => exact bounded_pure _
  | garbageArguments => exact bounded_pure _
  | systemError => exact bounded_pure _

theorem Rejection.bounded_read : read.Bounded := by
  rw [read_eq]
  apply (bounded_tag Kind .unknownRejectStatus).bind
  intro kind
  cases kind with
  | rpcMismatch => exact VersionRange.bounded_read.map rpcMismatch
  | authError => exact (bounded_tag AuthStatus .unknownAuthStatus).map authError

theorem Call.bounded_read (policy : Policy) : (read policy).Bounded :=
  bounded_word.bind fun _ =>
  (bounded_ensure _ _).bind fun _ =>
  bounded_word.bind fun _ =>
  bounded_word.bind fun _ =>
  bounded_word.bind fun _ =>
  (Credential.bounded_read policy).bind fun _ =>
  (Credential.bounded_read policy).bind fun _ =>
  bounded_tail.bind fun _ =>
  bounded_pure _

theorem Reply.bounded_read (policy : Policy) : (read policy).Bounded := by
  rw [read_eq]
  apply (bounded_tag Kind .unknownReplyStatus).bind
  intro kind
  cases kind with
  | accepted =>
      apply (Credential.bounded_read policy).bind
      intro verifier
      exact Outcome.bounded_read.map (accepted verifier)
  | denied => exact Rejection.bounded_read.map denied

theorem ReadScript.Step.bounded_read (policy : Policy) (step : Step) :
    (step.read policy).Bounded := by
  induction step with
  | word => exact bounded_word.map Value.word
  | int => exact (bounded_word.map UInt32.toInt32).map Value.int
  | double => exact bounded_double.map Value.double
  | long => exact (bounded_double.map UInt64.toInt64).map Value.long
  | bool => exact bounded_bool.map Value.bool
  | counted => exact (bounded_counted policy).map Value.data
  | string => exact (bounded_counted policy).map Value.string
  | fixed length => exact (bounded_fixed policy length).map Value.data
  | words => exact bounded_words.map Value.words
  | tail => exact bounded_tail.map Value.data
  | array minimum item induction =>
      exact (bounded_array (fun _ => induction) minimum).map Value.array
  | fixedArray count minimum item induction =>
      exact (bounded_fixedArray (fun _ => induction) count minimum).map Value.fixedArray
  | identity => exact (UnixIdentity.bounded_read policy).map Value.identity
  | credential => exact (Credential.bounded_read policy).map Value.credential
  | call => exact (Call.bounded_read policy).map Value.call
  | outcome => exact Outcome.bounded_read.map Value.outcome
  | rejection => exact Rejection.bounded_read.map Value.rejection
  | reply => exact (Reply.bounded_read policy).map Value.reply

end RpcWire
