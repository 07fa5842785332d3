import RpcWire.Proofs.Elements

namespace RpcWire

/-! # Places in the data

A reading goes by the bytes that are left and not by the place where they begin.
From two places with the same bytes left it yields one value or fails for one
reason, and moves both cursors by the same count. Only a fault that quotes its
place tells them apart. -/

namespace Fault

/-- The fault without the place that it quotes. -/
def withoutPlace : Fault → Fault
  | truncated needed _ remaining => truncated needed 0 remaining
  | dirtyPadding _ byte => dirtyPadding 0 byte
  | fault => fault

variable {fault other : Fault}

theorem code_withoutPlace (fault : Fault) : fault.withoutPlace.code = fault.code := by
  cases fault <;> rfl

theorem value_withoutPlace (fault : Fault) : fault.withoutPlace.value = fault.value := by
  cases fault <;> rfl

theorem code_eq_of_withoutPlace (same : other.withoutPlace = fault.withoutPlace) :
    other.code = fault.code := by
  rw [← code_withoutPlace, same, code_withoutPlace]

theorem value_eq_of_withoutPlace (same : other.withoutPlace = fault.withoutPlace) :
    other.value = fault.value := by
  rw [← value_withoutPlace, same, value_withoutPlace]

end Fault

namespace Cursor

variable {cursor other : Cursor}

theorem remaining_eq_of_rest (same : other.rest = cursor.rest) :
    other.remaining = cursor.remaining := by
  rw [← length_rest, same, length_rest]

theorem rest_advance_eq (same : other.rest = cursor.rest) (count : Nat) :
    (other.advance count).rest = (cursor.advance count).rest := by
  rw [rest_advance, same, rest_advance]

theorem rest_advance_ofBytes (data : Bytes) (offset : Nat) :
    (ofBytes (data.drop offset)).rest = ((ofBytes data).advance offset).rest := by
  rw [rest_ofBytes, rest_advance, rest_ofBytes]

end Cursor

namespace Reading

open Cursor

variable {α β : Type} {cursor other : Cursor}

/-- Two outcomes that differ at most in the places that their faults quote, and
two cursors that have moved by one count. -/
inductive Parallel (cursor other : Cursor) :
    EStateM.Result Fault Cursor α → EStateM.Result Fault Cursor α → Prop
  | yields (value : α) (count : Nat) :
      Parallel cursor other (.ok value (cursor.advance count)) (.ok value (other.advance count))
  | fails {fault faultOther : Fault} (same : faultOther.withoutPlace = fault.withoutPlace)
      (count : Nat) :
      Parallel cursor other (.error fault (cursor.advance count))
        (.error faultOther (other.advance count))

theorem Parallel.behind {count : Nat} {first second : EStateM.Result Fault Cursor α}
    (parallel : Parallel (cursor.advance count) (other.advance count) first second) :
    Parallel cursor other first second := by
  cases parallel with
  | yields value further =>
      rw [advance_advance, advance_advance]
      exact .yields value (count + further)
  | fails same further =>
      rw [advance_advance, advance_advance]
      exact .fails same (count + further)

/-- A reading goes by what is left. -/
def Relative (reading : Reading α) : Prop :=
  ∀ ⦃cursor other⦄, other.rest = cursor.rest →
    Parallel cursor other (reading.run cursor) (reading.run other)

/-! ## Steps -/

theorem parallel_stay (value : α) : Parallel cursor other (.ok value cursor) (.ok value other) :=
  .yields value 0

theorem parallel_stop {fault faultOther : Fault}
    (same : faultOther.withoutPlace = fault.withoutPlace) :
    Parallel (α := α) cursor other (.error fault cursor) (.error faultOther other) :=
  .fails same 0

theorem relative_pure (value : α) : Relative (pure value) :=
  fun _ _ _ => parallel_stay value

theorem relative_throw (fault : Fault) : Relative (throw fault : Reading α) :=
  fun _ _ _ => parallel_stop rfl

theorem relative_ensure (condition : Prop) [Decidable condition] (fault : Fault) :
    (ensure condition fault).Relative := by
  unfold ensure
  split
  · exact relative_pure ()
  · exact relative_throw fault

theorem relative_ofExcept (result : Except Fault α) : Relative (MonadExcept.ofExcept result) := by
  cases result with
  | ok value => exact relative_pure value
  | error fault => exact relative_throw fault

/-- Both cursors have moved by one count, so that what is left for the second
reading is the same again. -/
theorem Relative.bind {first : Reading α} {second : α → Reading β} (front : first.Relative)
    (back : ∀ value, (second value).Relative) : (first >>= second).Relative := by
  intro cursor other same
  have parallel := front same
  rw [EStateM.run_bind, EStateM.run_bind]
  generalize first.run cursor = ran at parallel
  generalize first.run other = ranOther at parallel
  cases parallel with
  | yields value count => exact (back value (rest_advance_eq same count)).behind
  | fails alike count => exact .fails alike count

theorem Relative.map {reading : Reading α} (relative : reading.Relative) (wrap : α → β) :
    Relative (do return wrap (← reading)) :=
  relative.bind fun value => relative_pure (wrap value)

/-! ## Numbers and data -/

theorem relative_word : word.Relative := by
  intro cursor other same
  rw [run_word, run_word, remaining_eq_of_rest same, same]
  by_cases enough : 4 ≤ cursor.remaining
  · rw [if_pos enough, if_pos enough]
    exact .yields _ 4
  · rw [if_neg enough, if_neg enough]
    exact parallel_stop rfl

theorem relative_double : double.Relative := by
  intro cursor other same
  rw [run_double, run_double, remaining_eq_of_rest same, same]
  by_cases enough : 8 ≤ cursor.remaining
  · rw [if_pos enough, if_pos enough]
    exact .yields _ 8
  · rw [if_neg enough, if_neg enough]
    exact parallel_stop rfl

theorem relative_bool : bool.Relative :=
  relative_word.bind fun value =>
  (relative_ensure _ (.notBool value)).bind fun _ =>
  relative_pure _

theorem relative_tag (Kind : Type) [Tag Kind] (unknown : UInt32 → Fault) :
    (tag Kind unknown).Relative :=
  relative_word.bind fun _ => relative_ofExcept _

/-- The padding has as many bytes as the length asks for, wherever it begins. A
dirty byte is quoted with its place. -/
theorem relative_padding (policy : Policy) (length : Nat) :
    (padding policy length).Relative := by
  intro cursor other same
  rw [run_padding, run_padding, remaining_eq_of_rest same, same]
  by_cases enough : padLength length ≤ cursor.remaining
  · rw [if_pos enough, if_pos enough]
    generalize (if policy.strictPadding = true then _ else _) = found
    cases found with
    | none => exact .yields () (padLength length)
    | some found => exact parallel_stop rfl
  · rw [if_neg enough, if_neg enough]
    exact parallel_stop rfl

theorem relative_fixed (policy : Policy) (length : Nat) : (fixed policy length).Relative := by
  intro cursor other same
  rw [run_fixed, run_fixed, remaining_eq_of_rest same, same]
  by_cases enough : length + padLength length ≤ cursor.remaining
  · have padded := relative_padding policy length (rest_advance_eq same length)
    rw [if_pos enough, if_pos enough]
    generalize (padding policy length).run (cursor.advance length) = ran at padded
    generalize (padding policy length).run (other.advance length) = ranOther at padded
    cases padded with
    | yields _ count => exact (Parallel.yields _ count).behind
    | fails alike count => exact (Parallel.fails alike count).behind
  · rw [if_neg enough, if_neg enough]
    exact parallel_stop rfl

/-- Behind its length word, counted data with room for it is data of that length. -/
theorem relative_counted (policy : Policy) : (counted policy).Relative := by
  intro cursor other same
  have parallel := relative_word same
  rw [run_counted, run_counted]
  generalize word.run cursor = ran at parallel
  generalize word.run other = ranOther at parallel
  cases parallel with
  | fails alike count => exact .fails alike count
  | yields length count =>
      have later := rest_advance_eq same count
      have remaining := remaining_eq_of_rest later
      simp only [remaining, later]
      by_cases enough :
          length.toNat + padLength length.toNat ≤ (cursor.advance count).remaining
      · have fixed := relative_fixed policy length.toNat later
        rw [run_fixed, run_fixed, remaining, later, if_pos enough, if_pos enough] at fixed
        rw [if_pos enough, if_pos enough]
        exact fixed.behind
      · rw [if_neg enough, if_neg enough]
        exact .fails rfl count

theorem relative_checkCount (count minimum : Nat) : (checkCount count minimum).Relative := by
  intro cursor other same
  rw [run_checkCount, run_checkCount, remaining_eq_of_rest same]
  by_cases enough : count ≤ cursor.remaining / max minimum 1
  · rw [if_pos enough, if_pos enough]
    exact parallel_stay ()
  · rw [if_neg enough, if_neg enough]
    exact parallel_stop rfl

theorem relative_words : words.Relative := by
  intro cursor other same
  have parallel := relative_word same
  rw [run_words, run_words]
  generalize word.run cursor = ran at parallel
  generalize word.run other = ranOther at parallel
  cases parallel with
  | fails alike moved => exact .fails alike moved
  | yields count moved =>
      have later := rest_advance_eq same moved
      simp only [remaining_eq_of_rest later, later]
      by_cases enough : count.toNat ≤ (cursor.advance moved).remaining / 4
      · rw [if_pos enough, if_pos enough]
        exact (Parallel.yields _ (4 * count.toNat)).behind
      · rw [if_neg enough, if_neg enough]
        exact .fails rfl moved

theorem relative_tail : tail.Relative := by
  intro cursor other same
  rw [run_tail, run_tail, remaining_eq_of_rest same, same]
  exact .yields _ cursor.remaining

/-! ## Arrays -/

namespace Progress

/-- The same elements are complete, and what has ended them is the same. -/
structure Parallel (cursor other : Cursor) (here there : Progress α) : Prop where
  items : there.items = here.items
  fault : there.fault.map Fault.withoutPlace = here.fault.map Fault.withoutPlace
  moved : ∃ count, here.cursor = cursor.advance count ∧ there.cursor = other.advance count

variable {here there : Progress α}

theorem Parallel.behind {count : Nat}
    (parallel : Parallel (cursor.advance count) (other.advance count) here there) :
    Parallel cursor other here there where
  items := parallel.items
  fault := parallel.fault
  moved := by
    rcases parallel.moved with ⟨further, reached, reachedOther⟩
    rw [advance_advance] at reached reachedOther
    exact ⟨count + further, reached, reachedOther⟩

theorem Parallel.cons (parallel : Parallel cursor other here there) (value : α) :
    Parallel cursor other { here with items := value :: here.items }
      { there with items := value :: there.items } where
  items := congrArg (value :: ·) parallel.items
  fault := parallel.fault
  moved := parallel.moved

theorem parallel_failed {fault faultOther : Fault}
    (same : faultOther.withoutPlace = fault.withoutPlace) (count : Nat) :
    Parallel (α := α) cursor other ⟨[], some fault, cursor.advance count⟩
      ⟨[], some faultOther, other.advance count⟩ where
  items := rfl
  fault := congrArg some same
  moved := ⟨count, rfl, rfl⟩

theorem Parallel.result (parallel : Parallel cursor other here there) :
    Reading.Parallel cursor other here.result there.result := by
  rcases here with ⟨items, fault, _⟩
  rcases there with ⟨itemsOther, faultOther, _⟩
  rcases parallel with ⟨rfl, same, count, rfl, rfl⟩
  cases fault with
  | none =>
      cases faultOther with
      | none => exact .yields itemsOther count
      | some raised => cases same
  | some raised =>
      cases faultOther with
      | none => cases same
      | some raisedOther => exact .fails (Option.some.inj same) count

end Progress

section

variable {item : Nat → Reading α} (each : ∀ index, (item index).Relative)
include each

theorem parallel_elements (index count : Nat) (same : other.rest = cursor.rest) :
    Progress.Parallel cursor other (elements item index count cursor)
      (elements item index count other) := by
  induction count generalizing index cursor other with
  | zero => exact ⟨rfl, rfl, 0, rfl, rfl⟩
  | succ count induction =>
      have parallel := each index same
      rw [elements, elements]
      generalize (item index).run cursor = ran at parallel
      generalize (item index).run other = ranOther at parallel
      cases parallel with
      | yields value moved =>
          exact (induction (index + 1) (rest_advance_eq same moved)).behind.cons value
      | fails alike moved => exact Progress.parallel_failed alike moved

theorem parallel_fixedArrayProgress (count minimum : Nat) (same : other.rest = cursor.rest) :
    Progress.Parallel cursor other (fixedArrayProgress count minimum item cursor)
      (fixedArrayProgress count minimum item other) := by
  have parallel := relative_checkCount count minimum same
  rw [fixedArrayProgress, fixedArrayProgress]
  generalize (checkCount count minimum).run cursor = ran at parallel
  generalize (checkCount count minimum).run other = ranOther at parallel
  cases parallel with
  | yields _ moved => exact (parallel_elements each 0 count (rest_advance_eq same moved)).behind
  | fails alike moved => exact Progress.parallel_failed alike moved

theorem parallel_arrayProgress (minimum : Nat) (same : other.rest = cursor.rest) :
    Progress.Parallel cursor other (arrayProgress minimum item cursor)
      (arrayProgress minimum item other) := by
  have counting : Relative (do
      let count ← word
      checkCount count.toNat minimum
      return count.toNat) :=
    relative_word.bind fun count =>
    (relative_checkCount count.toNat minimum).bind fun _ =>
    relative_pure _
  have parallel := counting same
  dsimp only [arrayProgress]
  generalize EStateM.run _ cursor = ran at parallel ⊢
  generalize EStateM.run _ other = ranOther at parallel ⊢
  cases parallel with
  | yields count moved =>
      exact (parallel_elements each 0 count (rest_advance_eq same moved)).behind
  | fails alike moved => exact Progress.parallel_failed alike moved

theorem relative_array (minimum : Nat) : (array minimum item).Relative :=
  fun _ _ same => (parallel_arrayProgress each minimum same).result

theorem relative_fixedArray (count minimum : Nat) : (fixedArray count minimum item).Relative :=
  fun _ _ same => (parallel_fixedArrayProgress each count minimum same).result

end

end Reading

open Reading

/-! ## The values of a message -/

theorem UnixIdentity.relative_read (policy : Policy) : (read policy).Relative :=
  relative_word.bind fun _ =>
  (relative_counted policy).bind fun _ =>
  relative_word.bind fun _ =>
  relative_word.bind fun _ =>
  relative_words.bind fun _ =>
  (relative_ensure _ _).bind fun _ =>
  relative_pure _

/-- A body is read as data of its own, so that the places that its faults quote are
the same from wherever the credential is read. -/
theorem Credential.relative_read (policy : Policy) : (read policy).Relative :=
  relative_word.bind fun _ =>
  (relative_counted policy).bind fun _ =>
  (relative_ensure _ _).bind fun _ =>
  relative_ofExcept _

theorem VersionRange.relative_read : read.Relative :=
  relative_word.bind fun _ =>
  relative_word.bind fun _ =>
  relative_pure _

theorem Outcome.relative_read : read.Relative := by
  rw [read_eq]
  apply (relative_tag Kind .unknownAcceptStatus).bind
  intro kind
  cases kind with
  | success => exact relative_tail.map success
  | programMismatch => exact VersionRange.relative_read.map programMismatch
  | programUnavailable => exact relative_pure _
  | procedureUnavailable => exact relative_pure _
  | garbageArguments => exact relative_pure _
  | systemError => exact relative_pure _

theorem Rejection.relative_read : read.Relative := by
  rw [read_eq]
  apply (relative_tag Kind .unknownRejectStatus).bind
  intro kind
  cases kind with
  | rpcMismatch => exact VersionRange.relative_read.map rpcMismatch
  | authError => exact (relative_tag AuthStatus .unknownAuthStatus).map authError

theorem Call.relative_read (policy : Policy) : (read policy).Relative :=
  relative_word.bind fun _ =>
  (relative_ensure _ _).bind fun _ =>
  relative_word.bind fun _ =>
  relative_word.bind fun _ =>
  relative_word.bind fun _ =>
  (Credential.relative_read policy).bind fun _ =>
  (Credential.relative_read policy).bind fun _ =>
  relative_tail.bind fun _ =>
  relative_pure _

theorem Reply.relative_read (policy : Policy) : (read policy).Relative := by
  rw [read_eq]
  apply (relative_tag Kind .unknownReplyStatus).bind
  intro kind
  cases kind with
  | accepted =>
      apply (Credential.relative_read policy).bind
      intro verifier
      exact Outcome.relative_read.map (accepted verifier)
  | denied => exact Rejection.relative_read.map denied

/-! ## The steps of a script -/

namespace ReadScript

variable {cursor other : Cursor}

theorem Step.relative_read (policy : Policy) (step : Step) : (step.read policy).Relative := by
  induction step with
  | word => exact relative_word.map Value.word
  | int => exact (relative_word.map UInt32.toInt32).map Value.int
  | double => exact relative_double.map Value.double
  | long => exact (relative_double.map UInt64.toInt64).map Value.long
  | bool => exact relative_bool.map Value.bool
  | counted => exact (relative_counted policy).map Value.data
  | string => exact (relative_counted policy).map Value.string
  | fixed length => exact (relative_fixed policy length).map Value.data
  | words => exact relative_words.map Value.words
  | tail => exact relative_tail.map Value.data
  | array minimum item induction =>
      exact (relative_array (fun _ => induction) minimum).map Value.array
  | fixedArray count minimum item induction =>
      exact (relative_fixedArray (fun _ => induction) count minimum).map Value.fixedArray
  | identity => exact (UnixIdentity.relative_read policy).map Value.identity
  | credential => exact (Credential.relative_read policy).map Value.credential
  | call => exact (Call.relative_read policy).map Value.call
  | outcome => exact Outcome.relative_read.map Value.outcome
  | rejection => exact Rejection.relative_read.map Value.rejection
  | reply => exact (Reply.relative_read policy).map Value.reply

theorem Step.completed?_eq (policy : Policy) (step : Step) (same : other.rest = cursor.rest) :
    step.completed? policy other = step.completed? policy cursor := by
  cases step with
  | array minimum item =>
      exact congrArg some
        (parallel_arrayProgress (fun _ => item.relative_read policy) minimum same).items
  | fixedArray count minimum item =>
      exact congrArg some
        (parallel_fixedArrayProgress (fun _ => item.relative_read policy) count minimum same).items
  | _ => rfl

/-- What a step did in the one place and in the other: one value or one fault but for
the place that it quotes, the same complete elements, and the same way gone. -/
structure Record.Parallel (cursor other : Cursor) (here there : Record) : Prop where
  result : there.result.mapError Fault.withoutPlace = here.result.mapError Fault.withoutPlace
  completed : there.completed = here.completed
  moved : ∃ count, here.cursor = cursor.advance count ∧ there.cursor = other.advance count

theorem Record.Parallel.behind {count : Nat} {here there : Record}
    (parallel : Parallel (cursor.advance count) (other.advance count) here there) :
    Parallel cursor other here there where
  result := parallel.result
  completed := parallel.completed
  moved := by
    rcases parallel.moved with ⟨further, reached, reachedOther⟩
    rw [Cursor.advance_advance] at reached reachedOther
    exact ⟨count + further, reached, reachedOther⟩

theorem Step.parallel_run (policy : Policy) (step : Step) (same : other.rest = cursor.rest) :
    Record.Parallel cursor other (step.run policy cursor) (step.run policy other) := by
  have parallel := step.relative_read policy same
  have completed := step.completed?_eq policy same
  rw [run, run]
  generalize (step.read policy).run cursor = ran at parallel
  generalize (step.read policy).run other = ranOther at parallel
  cases parallel with
  | yields value count => exact ⟨rfl, completed, count, rfl, rfl⟩
  | fails alike count => exact ⟨congrArg Except.error alike, completed, count, rfl, rfl⟩

/-- After each step the same bytes are left, so that the next goes alike again. -/
theorem parallel_run (policy : Policy) (steps : List Step) (same : other.rest = cursor.rest) :
    List.Forall₂ (Record.Parallel cursor other) (run policy steps cursor)
      (run policy steps other) := by
  induction steps generalizing cursor other with
  | nil => exact .nil
  | cons step later induction =>
      have parallel := step.parallel_run policy same
      rcases parallel.moved with ⟨count, reached, reachedOther⟩
      rw [run, run]
      refine .cons parallel ?_
      rw [reached, reachedOther]
      exact (induction (Cursor.rest_advance_eq same count)).imp fun _ _ further => further.behind

end ReadScript

/-! ## In registers -/

namespace Register

variable {α : Type} {cursor other : Cursor}

theorem Does.parallel {inRegisters reading : Reading α} (does : Does inRegisters reading)
    (relative : reading.Relative) (holds : Holds cursor) (holdsOther : Holds other)
    (same : other.rest = cursor.rest) :
    Parallel cursor other (inRegisters.run cursor) (inRegisters.run other) := by
  rw [does cursor holds, does other holdsOther]
  exact relative same

theorem holds_advance_ofBytes {data : Bytes} (short : data.length < 0x8000000000000000)
    {offset : Nat} (inside : offset ≤ data.length) :
    Holds ((Cursor.ofBytes data).advance offset) := by
  refine ⟨?_, short⟩
  rw [Cursor.Inside, Cursor.offset_advance]
  exact Nat.le_trans (Nat.le_of_eq (Nat.zero_add offset)) inside

theorem holds_ofBytes_drop {data : Bytes} (short : data.length < 0x8000000000000000)
    (offset : Nat) : Holds (Cursor.ofBytes (data.drop offset)) := by
  refine ⟨Cursor.inside_ofBytes _, ?_⟩
  change (data.drop offset).length < _
  rw [List.length_drop]
  omega

end Register

namespace ReadScript

open Cursor

/-- From any place in the data an operation does what it does at the start of data that
begins there, and so do all operations behind it; it makes no difference whether the
place is a multiple of four. So it is with an array of any elements that go by what is
left. In registers of 64 bits it is the same for every length, count and size of the
elements. Faults that differ in their places only have one code and one value. -/
theorem same_from_every_place :
    (∀ (policy : Policy) (step : Step) (data : Bytes) (offset : Nat),
      Record.Parallel ((ofBytes data).advance offset) (ofBytes (data.drop offset))
        (step.run policy ((ofBytes data).advance offset))
        (step.run policy (ofBytes (data.drop offset)))) ∧
    (∀ (policy : Policy) (steps : List Step) (cursor other : Cursor), other.rest = cursor.rest →
      List.Forall₂ (Record.Parallel cursor other) (run policy steps cursor)
        (run policy steps other)) ∧
    (∀ (α : Type) (item : Nat → Reading α), (∀ index, (item index).Relative) →
      ∀ (count minimum : Nat) (cursor other : Cursor), other.rest = cursor.rest →
        Progress.Parallel cursor other (arrayProgress minimum item cursor)
          (arrayProgress minimum item other) ∧
        Progress.Parallel cursor other (fixedArrayProgress count minimum item cursor)
          (fixedArrayProgress count minimum item other)) ∧
    (∀ (policy : Policy) (data : Bytes) (offset : Nat), data.length < 0x8000000000000000 →
      offset ≤ data.length →
      let here := (ofBytes data).advance offset
      let there := ofBytes (data.drop offset)
      Parallel here there ((Register.counted policy).run here)
        ((Register.counted policy).run there) ∧
      Parallel here there (Register.words.run here) (Register.words.run there) ∧
      (∀ length, Parallel here there ((Register.fixed policy length).run here)
        ((Register.fixed policy length).run there)) ∧
      ∀ (α : Type) (count minimum : UInt64) (item : Nat → Reading α),
        (∀ index, (item index).Relative) →
        Parallel here there ((Register.array minimum item).run here)
          ((Register.array minimum item).run there) ∧
        Parallel here there ((Register.fixedArray count minimum item).run here)
          ((Register.fixedArray count minimum item).run there)) ∧
    ∀ fault other : Fault, other.withoutPlace = fault.withoutPlace →
      other.code = fault.code ∧ other.value = fault.value := by
  refine ⟨?_, ?_, ?_, ?_, ?_⟩
  · intro policy step data offset
    exact step.parallel_run policy (rest_advance_ofBytes data offset)
  · intro policy steps cursor other same
    exact parallel_run policy steps same
  · intro α item each count minimum cursor other same
    exact ⟨parallel_arrayProgress each minimum same,
      parallel_fixedArrayProgress each count minimum same⟩
  · intro policy data offset short inside here there
    have same : there.rest = here.rest := rest_advance_ofBytes data offset
    have holds : Register.Holds here := Register.holds_advance_ofBytes short inside
    have holdsThere : Register.Holds there := Register.holds_ofBytes_drop short offset
    refine ⟨?_, ?_, ?_, ?_⟩
    · exact (Register.does_counted policy).parallel (relative_counted policy) holds holdsThere same
    · exact Register.does_words.parallel relative_words holds holdsThere same
    · intro length
      exact (Register.does_fixed policy length).parallel (relative_fixed policy length.toNat)
        holds holdsThere same
    · intro α count minimum item each
      exact ⟨(Register.does_array minimum item).parallel (relative_array each minimum.toNat)
          holds holdsThere same,
        (Register.does_fixedArray count minimum item).parallel
          (relative_fixedArray each count.toNat minimum.toNat) holds holdsThere same⟩
  · intro fault other same
    exact ⟨Fault.code_eq_of_withoutPlace same, Fault.value_eq_of_withoutPlace same⟩

/-- Behind three bytes, a list of two elements of one byte each, the second of which has
dirty padding, and a word. -/
def sampleOdd : Bytes := [7, 7, 7, 0, 0, 0, 2, 1, 0, 0, 0, 2, 0, 5, 0, 0, 0, 0, 9]

theorem same_from_every_place_sampleOdd :
    let strict : Policy := { strictPadding := true }
    let list := Step.array 4 (.fixed 1)
    let here := (ofBytes sampleOdd).advance 3
    let there := ofBytes (sampleOdd.drop 3)
    Record.Parallel here there (list.run strict here) (list.run strict there) ∧
      (run strict [list, .word] here).map (fun record => (record.fault, record.cursor.offset)) =
        [(some (.dirtyPadding 13 5), 12), (none, 16)] ∧
      (run strict [list, .word] there).map (fun record => (record.fault, record.cursor.offset)) =
        [(some (.dirtyPadding 10 5), 9), (none, 13)] ∧
      there.rest = here.rest ∧
      List.Forall₂ (Record.Parallel here there) (run strict [list, .word] here)
        (run strict [list, .word] there) ∧
      Progress.Parallel here there (arrayProgress 4 (fun _ => fixed strict 1) here)
        (arrayProgress 4 (fun _ => fixed strict 1) there) ∧
      Parallel here there ((Register.fixed strict 0xffffffffffffffff).run here)
        ((Register.fixed strict 0xffffffffffffffff).run there) ∧
      (Fault.dirtyPadding 10 5).value = (Fault.dirtyPadding 13 5).value := by
  intro strict list here there
  rcases same_from_every_place with ⟨single, several, arrays, registers, faults⟩
  have same : there.rest = here.rest := by decide
  have each (index : Nat) : ((fun _ => fixed strict 1 : Nat → Reading Bytes) index).Relative :=
    relative_fixed strict 1
  rcases registers strict sampleOdd 3 (by decide) (by decide) with ⟨_, _, wide, _⟩
  exact ⟨single strict list sampleOdd 3, by decide, by decide, same,
    several strict [list, .word] here there same, (arrays Bytes _ each 0 4 here there same).1,
    wide 0xffffffffffffffff, (faults (.dirtyPadding 13 5) (.dirtyPadding 10 5) rfl).2⟩

end ReadScript

end RpcWire
