import RpcWire.Proofs.Registers
import RpcWire.Proofs.Views

namespace RpcWire

/-! # Programs of readings

What a caller may do with a reader: run any operation, ask where the reader is,
choose the next operation by what came out, give up, and go on behind a fault.
Whatever the caller does, the operations follow each other through the data,
and each of them stays between the place where it started and the one where it
stopped. -/

open Cursor

/-- What one operation did: the places where it started and stopped, the views
that it handed out, and the fault if it failed. -/
structure Visit where
  before : Cursor
  views : List Bytes
  fault : Option Fault
  after : Cursor

structure Visit.Safe (visit : Visit) : Prop where
  moved : visit.before.Proceeds visit.after
  shown : ∀ view ∈ visit.views, visit.before.Shows visit.after view
  coded : ∀ fault ∈ visit.fault, ∃ code, fault.code = some code ∧ code ≠ .bufferTooSmall

/-- Safe visits, each of which starts where the one before has stopped. -/
def Visit.Chained : Cursor → List Visit → Cursor → Prop
  | start, [], final => final = start
  | start, visit :: later, final =>
      visit.before = start ∧ visit.Safe ∧ Visit.Chained visit.after later final

namespace Visit

variable {start middle final : Cursor} {visits earlier later : List Visit}

theorem chained_one {visit : Visit} (safe : visit.Safe) :
    Chained visit.before [visit] visit.after :=
  ⟨rfl, safe, rfl⟩

theorem Chained.append (front : Chained start earlier middle)
    (back : Chained middle later final) : Chained start (earlier ++ later) final := by
  induction earlier generalizing start with
  | nil =>
      cases front
      exact back
  | cons visit rest induction =>
      rcases front with ⟨starts, safe, chained⟩
      exact ⟨starts, safe, induction chained⟩

theorem Chained.proceeds (chained : Chained start visits final) (inside : start.Inside) :
    start.Proceeds final := by
  induction visits generalizing start with
  | nil =>
      cases chained
      exact .refl inside
  | cons visit rest induction =>
      rcases chained with ⟨rfl, safe, chained⟩
      exact safe.moved.trans (induction chained safe.moved.inside)

theorem Chained.of_mem (chained : Chained start visits final) (inside : start.Inside)
    {visit : Visit} (member : visit ∈ visits) :
    start.Proceeds visit.before ∧ visit.Safe ∧ visit.after.Proceeds final := by
  induction visits generalizing start with
  | nil => cases member
  | cons first rest induction =>
      rcases chained with ⟨rfl, safe, chained⟩
      rcases List.mem_cons.mp member with rfl | later
      · exact ⟨.refl inside, safe, chained.proceeds safe.moved.inside⟩
      · rcases induction chained safe.moved.inside later with ⟨reached, safeLater, left⟩
        exact ⟨safe.moved.trans reached, safeLater, left⟩

end Visit

/-! ## Single operations -/

namespace Reading

variable {α β : Type} {cursor : Cursor}

/-- The cursor that a run has left, whether it failed or not. -/
def place : EStateM.Result Fault Cursor α → Cursor
  | .ok _ next => next
  | .error _ stopped => stopped

def fault? : EStateM.Result Fault Cursor α → Option Fault
  | .ok _ _ => none
  | .error fault _ => some fault

def after (reading : Reading α) (cursor : Cursor) : Cursor := place (reading.run cursor)

theorem after_bind (first : Reading α) (second : α → Reading β) :
    (first >>= second).after cursor =
      match first.run cursor with
      | .ok value next => (second value).after next
      | .error _ stopped => stopped := by
  rw [after, EStateM.run_bind]
  cases first.run cursor <;> rfl

theorem after_tryCatch (first : Reading α) (second : Fault → Reading α) :
    after (tryCatch first second) cursor =
      match first.run cursor with
      | .ok _ next => next
      | .error fault stopped => (second fault).after stopped := by
  rw [after, run_tryCatch]
  cases first.run cursor <;> rfl

theorem after_map (reading : Reading α) (wrap : α → β) :
    after (do return wrap (← reading)) cursor = reading.after cursor := by
  rw [after_bind, after]
  cases reading.run cursor <;> rfl

theorem Progress.place_result (progress : Progress α) :
    place progress.result = progress.cursor := by
  rcases progress with ⟨items, _ | fault, final⟩ <;> rfl

theorem after_array (minimum : Nat) (item : Nat → Reading α) :
    (array minimum item).after cursor = (arrayProgress minimum item cursor).cursor :=
  (arrayProgress minimum item cursor).place_result

theorem after_fixedArray (count minimum : Nat) (item : Nat → Reading α) :
    (fixedArray count minimum item).after cursor =
      (fixedArrayProgress count minimum item cursor).cursor :=
  (fixedArrayProgress count minimum item cursor).place_result

theorem Bounded.proceeds_after {reading : Reading α} (bounded : reading.Bounded)
    (inside : cursor.Inside) : cursor.Proceeds (reading.after cursor) := by
  rw [after]
  cases ran : reading.run cursor with
  | ok value next => exact bounded.proceeds_of_ok inside ran
  | error fault stopped => exact bounded.proceeds_of_error inside ran

theorem Raises.coded {reading : Reading α} (raises : reading.Raises Fault.OfReader) :
    ∀ fault ∈ fault? (reading.run cursor),
      ∃ code, fault.code = some code ∧ code ≠ .bufferTooSmall := by
  intro fault failed
  cases ran : reading.run cursor with
  | ok value next =>
      rw [ran] at failed
      cases failed
  | error raised stopped =>
      rw [ran] at failed
      cases failed
      exact (raises cursor fault stopped ran).exists_code

/-- The visit of a reading that hands out no view. -/
def plainVisit (reading : Reading α) (cursor : Cursor) : Visit where
  before := cursor
  views := []
  fault := fault? (reading.run cursor)
  after := reading.after cursor

theorem safe_plainVisit {reading : Reading α} (bounded : reading.Bounded)
    (raises : reading.Raises Fault.OfReader) (inside : cursor.Inside) :
    (reading.plainVisit cursor).Safe where
  moved := bounded.proceeds_after inside
  shown _ member := absurd member List.not_mem_nil
  coded := raises.coded

end Reading

namespace ReadScript

open Reading

variable {policy : Policy} {cursor : Cursor}

def Record.fault (record : Record) : Option Fault :=
  match record.result with
  | .ok _ => none
  | .error fault => some fault

/-- The views that a step has handed out, those of the elements of an array
that failed in the end among them. -/
def Record.views (record : Record) : List Bytes :=
  (match record.result with
    | .ok value => value.views
    | .error _ => []) ++
  (match record.completed with
    | some items => items.flatMap Value.views
    | none => [])

def Record.visit (record : Record) (before : Cursor) : Visit where
  before := before
  views := record.views
  fault := record.fault
  after := record.cursor

namespace Step

theorem raises_read (policy : Policy) (step : Step) :
    (step.read policy).Raises Fault.OfReader := by
  induction step with
  | word => exact (raises_word.mono Fault.LacksBytes.ofReader).map Value.word
  | int =>
      exact ((raises_word.mono Fault.LacksBytes.ofReader).map UInt32.toInt32).map Value.int
  | double => exact (raises_double.mono Fault.LacksBytes.ofReader).map Value.double
  | long =>
      exact ((raises_double.mono Fault.LacksBytes.ofReader).map UInt64.toInt64).map Value.long
  | bool => exact raises_bool.map Value.bool
  | counted => exact ((raises_counted policy).mono Fault.OfData.ofReader).map Value.data
  | string => exact ((raises_counted policy).mono Fault.OfData.ofReader).map Value.string
  | fixed length =>
      exact ((raises_fixed policy length).mono Fault.OfData.ofReader).map Value.data
  | words => exact (raises_words.mono Fault.LacksBytes.ofReader).map Value.words
  | tail => exact raises_tail.map Value.data
  | array minimum item induction =>
      exact (raises_array (fun _ => induction) minimum).map Value.array
  | fixedArray count minimum item induction =>
      exact (raises_fixedArray (fun _ => induction) count minimum).map Value.fixedArray
  | identity =>
      exact ((UnixIdentity.raises_read policy).mono Fault.OfData.ofReader).map Value.identity
  | credential =>
      exact ((Credential.raises_read policy).mono Fault.OfData.ofReader).map Value.credential
  | call => exact (Call.raises_read policy).map Value.call
  | outcome => exact Outcome.raises_read.map Value.outcome
  | rejection => exact Rejection.raises_read.map Value.rejection
  | reply => exact (Reply.raises_read policy).map Value.reply

theorem cursor_run (step : Step) :
    (step.run policy cursor).cursor = (step.read policy).after cursor := by
  rw [run, after]
  cases (step.read policy).run cursor <;> rfl

theorem completed_run (step : Step) :
    (step.run policy cursor).completed = step.completed? policy cursor := by
  rw [run]
  cases (step.read policy).run cursor <;> rfl

theorem fault_run (step : Step) :
    (step.run policy cursor).fault = fault? ((step.read policy).run cursor) := by
  rw [Record.fault, run]
  cases (step.read policy).run cursor <;> rfl

theorem shows_result (inside : cursor.Inside) {step : Step} {value : Value}
    (yielded : (step.run policy cursor).result = .ok value) :
    ∀ view ∈ value.views, cursor.Shows ((step.read policy).after cursor) view := by
  rw [run] at yielded
  rw [after]
  cases ran : (step.read policy).run cursor with
  | ok found next =>
      rw [ran] at yielded
      cases yielded
      exact step.exposes_read policy inside ran
  | error fault stopped =>
      rw [ran] at yielded
      cases yielded

/-- The complete elements of an array are found where the array was read, even
if another one failed. -/
theorem shows_completed (inside : cursor.Inside) {step : Step} {items : List Value}
    (completed : step.completed? policy cursor = some items) :
    ∀ view ∈ items.flatMap Value.views, cursor.Shows ((step.read policy).after cursor) view := by
  cases step with
  | array minimum item =>
      cases completed
      have shown := shownFrom_arrayProgress (fun _ => item.bounded_read policy)
        (fun _ => item.exposes_read policy) minimum inside
      rw [read, after_map, after_array]
      exact shown.shown
  | fixedArray count minimum item =>
      cases completed
      have shown := shownFrom_fixedArrayProgress (fun _ => item.bounded_read policy)
        (fun _ => item.exposes_read policy) count minimum inside
      rw [read, after_map, after_fixedArray]
      exact shown.shown
  | _ => cases completed

theorem safe_visit (policy : Policy) (step : Step) (inside : cursor.Inside) :
    ((step.run policy cursor).visit cursor).Safe where
  moved := by
    rw [Record.visit, cursor_run]
    exact (step.bounded_read policy).proceeds_after inside
  shown := by
    intro view member
    rw [Record.visit, Record.views] at member
    rw [Record.visit, cursor_run]
    rcases List.mem_append.mp member with yielded | completed
    · cases result : (step.run policy cursor).result with
      | ok value =>
          rw [result] at yielded
          exact shows_result inside result view yielded
      | error fault =>
          rw [result] at yielded
          exact absurd yielded List.not_mem_nil
    · rw [completed_run] at completed
      cases items : step.completed? policy cursor with
      | none =>
          rw [items] at completed
          exact absurd completed List.not_mem_nil
      | some found =>
          rw [items] at completed
          exact shows_completed inside items view completed
  coded := by
    rw [Record.visit, fault_run]
    exact (step.raises_read policy).coded

end Step

end ReadScript

/-! ## Programs -/

/-- What a caller makes of the operations on one reader. The count of an array
is checked between its count word and its elements. -/
inductive Program : Type → Type 1
  | yield {α : Type} (value : α) : Program α
  | fail {α : Type} (fault : Fault) : Program α
  | look : Program (Nat × Nat)
  | operation (step : ReadScript.Step) : Program ReadScript.Value
  | word : Program UInt32
  | checkCount (count minimum : Nat) : Program Unit
  | bind {α β : Type} (first : Program α) (second : α → Program β) : Program β
  | recover {α : Type} (first : Program α) (second : Fault → Program α) : Program α

namespace Program

open Reading

variable {α β : Type} {policy : Policy} {cursor : Cursor}

def read (policy : Policy) {α : Type} : Program α → Reading α
  | yield value => pure value
  | fail fault => throw fault
  | look => Reading.look
  | operation step => step.read policy
  | word => Reading.word
  | checkCount count minimum => Reading.checkCount count minimum
  | bind first second => first.read policy >>= fun value => (second value).read policy
  | recover first second => tryCatch (first.read policy) fun fault => (second fault).read policy

/-- The visits of all operations that a program runs, the elements of arrays and
the operations behind a fault among them. -/
def log (policy : Policy) {α : Type} : Program α → Cursor → List Visit
  | yield _, _ | fail _, _ | look, _ => []
  | operation step, cursor => [(step.run policy cursor).visit cursor]
  | word, cursor => [Reading.word.plainVisit cursor]
  | checkCount count minimum, cursor => [(Reading.checkCount count minimum).plainVisit cursor]
  | bind first second, cursor =>
      first.log policy cursor ++
        match (first.read policy).run cursor with
        | .ok value next => (second value).log policy next
        | .error _ _ => []
  | recover first second, cursor =>
      first.log policy cursor ++
        match (first.read policy).run cursor with
        | .ok _ _ => []
        | .error fault stopped => (second fault).log policy stopped

theorem bounded_read (program : Program α) : (program.read policy).Bounded := by
  induction program with
  | yield value => exact bounded_pure value
  | fail fault => exact bounded_throw fault
  | look => exact bounded_look
  | operation step => exact step.bounded_read policy
  | word => exact bounded_word
  | checkCount count minimum => exact bounded_checkCount count minimum
  | bind first second front back => exact front.bind back
  | recover first second front back => exact front.recover back

/-- One step for each operation, so that the visits of a whole program lead from
where it starts to where it stops. -/
theorem chained_log (program : Program α) (inside : cursor.Inside) :
    Visit.Chained cursor (program.log policy cursor) ((program.read policy).after cursor) := by
  induction program generalizing cursor with
  | yield value => rfl
  | fail fault => rfl
  | look => rfl
  | operation step =>
      rw [log, read, ← ReadScript.Step.cursor_run]
      exact Visit.chained_one (step.safe_visit policy inside)
  | word =>
      exact Visit.chained_one <| safe_plainVisit bounded_word
        (raises_word.mono Fault.LacksBytes.ofReader) inside
  | checkCount count minimum =>
      exact Visit.chained_one <| safe_plainVisit (bounded_checkCount count minimum)
        ((raises_checkCount count minimum).mono Fault.LacksBytes.ofReader) inside
  | bind first second inductionFirst inductionSecond =>
      -- The second part starts where the first has stopped, which is inside again.
      have front := inductionFirst inside
      rw [log, read, after_bind]
      rw [after] at front
      cases ran : (first.read policy).run cursor with
      | ok value next =>
          rw [ran] at front
          have moved := first.bounded_read.proceeds_of_ok inside ran
          exact front.append (inductionSecond value moved.inside)
      | error fault stopped =>
          rw [ran] at front
          exact front.append rfl
  | recover first second inductionFirst inductionSecond =>
      have front := inductionFirst inside
      rw [log, read, after_tryCatch]
      rw [after] at front
      cases ran : (first.read policy).run cursor with
      | ok value next =>
          rw [ran] at front
          exact front.append rfl
      | error fault stopped =>
          rw [ran] at front
          have moved := first.bounded_read.proceeds_of_error inside ran
          exact front.append (inductionSecond fault moved.inside)

/-! ## Arrays and scripts are programs -/

def sequence (item : Nat → Program α) (index : Nat) : (count : Nat) → Program (List α)
  | 0 => yield []
  | count + 1 =>
      bind (item index) fun value =>
      bind (sequence item (index + 1) count) fun later =>
      yield (value :: later)

def array (minimum : Nat) (item : Nat → Program α) : Program (List α) :=
  bind word fun count =>
  bind (checkCount count.toNat minimum) fun _ =>
  sequence item 0 count.toNat

def fixedArray (count minimum : Nat) (item : Nat → Program α) : Program (List α) :=
  bind (checkCount count minimum) fun _ => sequence item 0 count

theorem read_sequence (item : Nat → Program α) (index count : Nat) :
    (sequence item index count).read policy =
      Reading.sequence (fun index => (item index).read policy) index count := by
  induction count generalizing index with
  | zero => rfl
  | succ count induction =>
      rw [sequence, sequence_succ, ← induction]
      rfl

theorem read_array (minimum : Nat) (item : Nat → Program α) :
    (array minimum item).read policy =
      Reading.array minimum fun index => (item index).read policy := by
  simp only [array, read, read_sequence, array_eq]

theorem read_fixedArray (count minimum : Nat) (item : Nat → Program α) :
    (fixedArray count minimum item).read policy =
      Reading.fixedArray count minimum fun index => (item index).read policy := by
  simp only [fixedArray, read, read_sequence, fixedArray_eq]

/-- Run a step and go on, whether it fails or not. -/
def attempt (step : ReadScript.Step) : Program Unit :=
  recover (bind (operation step) fun _ => yield ()) fun _ => yield ()

def script : List ReadScript.Step → Program Unit
  | [] => yield ()
  | step :: later => bind (attempt step) fun _ => script later

theorem log_attempt (step : ReadScript.Step) :
    (attempt step).log policy cursor = [(step.run policy cursor).visit cursor] := by
  simp only [attempt, log, read, EStateM.run_bind]
  cases (step.read policy).run cursor <;> rfl

theorem run_attempt (step : ReadScript.Step) :
    ((attempt step).read policy).run cursor = .ok () (step.run policy cursor).cursor := by
  simp only [attempt, read, run_tryCatch, EStateM.run_bind, ReadScript.Step.run]
  cases (step.read policy).run cursor <;> rfl

end Program

namespace ReadScript

/-- The visits of a script, each from where the record before has stopped. -/
def visits : Cursor → List Record → List Visit
  | _, [] => []
  | before, record :: later => record.visit before :: visits record.cursor later

theorem log_script (policy : Policy) (steps : List Step) (start : Cursor) :
    (Program.script steps).log policy start = visits start (run policy steps start) := by
  induction steps generalizing start with
  | nil => rfl
  | cons step later induction =>
      rw [run, visits, ← induction, Program.script, Program.log, Program.log_attempt,
        Program.run_attempt]
      rfl

end ReadScript

/-! ## Operations stay inside -/

/-- Whatever a caller does with a reader from a place inside the data, its
operations follow each other to the place where it stops. Each of them moves
forward within the data, hands out views of what it went over only, and fails
with one of a reader's codes. Bytes behind the data make no difference. Arrays
with any elements and scripts are such programs, and a credential is never
refused as one that a caller may not make. Lengths, counts and sizes of elements
may be any that a register of 64 bits holds: where the bounds are computed in
such registers, the operations do the same. -/
theorem Program.operations_stay_inside :
    (∀ bytes : Bytes, (ofBytes bytes).Inside ∧ (ofBytes bytes).data = bytes) ∧
    (∀ (policy : Policy) (α : Type) (program : Program α) (cursor other : Cursor),
      cursor.Inside → cursor.Alike other →
      Visit.Chained cursor (program.log policy cursor) ((program.read policy).after cursor) ∧
      Reading.Agrees cursor ((program.read policy).run cursor)
        ((program.read policy).run other)) ∧
    (∀ (start final : Cursor) (visits : List Visit), start.Inside →
      Visit.Chained start visits final → ∀ visit ∈ visits,
        start.Proceeds visit.before ∧ visit.Safe ∧ visit.after.Proceeds final) ∧
    (∀ (policy : Policy) (α : Type) (minimum : Nat) (item : Nat → Program α),
      (array minimum item).read policy =
        Reading.array minimum (fun index => (item index).read policy) ∧
      ∀ count, (fixedArray count minimum item).read policy =
        Reading.fixedArray count minimum (fun index => (item index).read policy)) ∧
    (∀ (policy : Policy) (steps : List ReadScript.Step) (start : Cursor),
      (script steps).log policy start =
        ReadScript.visits start (ReadScript.run policy steps start)) ∧
    (∀ (policy : Policy) (cursor stopped : Cursor) (flavor : UInt32),
      (Credential.read policy).run cursor ≠ .error (.reservedFlavor flavor) stopped) ∧
    ∀ (policy : Policy) (α : Type) (item : Nat → Reading α) (length count minimum : UInt64),
      Register.Does (Register.fixed policy length) (Reading.fixed policy length.toNat) ∧
      Register.Does (Register.checkCount count minimum)
        (Reading.checkCount count.toNat minimum.toNat) ∧
      Register.Does (Register.counted policy) (Reading.counted policy) ∧
      Register.Does Register.words Reading.words ∧
      Register.Does (Register.array minimum item) (Reading.array minimum.toNat item) ∧
      Register.Does (Register.fixedArray count minimum item)
        (Reading.fixedArray count.toNat minimum.toNat item) := by
  refine ⟨?_, ?_, ?_, ?_, ReadScript.log_script, ?_, ?_⟩
  · exact fun bytes => ⟨inside_ofBytes bytes, data_ofBytes bytes⟩
  · intro policy α program cursor other inside alike
    exact ⟨program.chained_log inside, program.bounded_read inside alike⟩
  · intro start final visits inside chained visit member
    exact chained.of_mem inside member
  · exact fun policy α minimum item =>
      ⟨read_array minimum item, fun count => read_fixedArray count minimum item⟩
  · intro policy cursor stopped flavor failed
    exact Credential.raises_read policy cursor _ stopped failed
  · intro policy α item length count minimum
    exact ⟨Register.does_fixed policy length, Register.does_checkCount count minimum,
      Register.does_counted policy, Register.does_words, Register.does_array minimum item,
      Register.does_fixedArray count minimum item⟩

/-- A place in front of fourteen bytes of data, behind which an earlier message
has left some bytes. -/
def Cursor.sampleReused (left : Bytes) : Cursor where
  store := [0, 0, 0, 9, 1, 2, 3, 4, 0, 0, 0, 5, 0, 0] ++ left
  size := 14
  offset := 0
  size_le := by simp

/-- Data whose length word asks for too much is given up. Fixed data and a word
are read from behind that word, and for another word two bytes are missing. -/
def Program.sampleScript : Program Unit := script [.counted, .fixed 4, .word, .word]

theorem Program.operations_stay_inside_sample :
    (sampleScript.log {} (.sampleReused [7, 7])).map
        (fun visit => (visit.before.offset, visit.views, visit.fault, visit.after.offset)) =
      [(0, [], some (.dataTooLong 9 10), 4), (4, [[1, 2, 3, 4]], none, 8), (8, [], none, 12),
        (12, [], some (.truncated 4 12 2), 12)] ∧
    (∀ visit ∈ sampleScript.log {} (.sampleReused [7, 7]), visit.Safe) ∧
    Reading.Agrees (.sampleReused [7, 7]) ((sampleScript.read {}).run (.sampleReused [7, 7]))
      ((sampleScript.read {}).run (.sampleReused [])) ∧
    Register.Holds (.sampleReused [7, 7]) ∧
    (Register.fixed {} 0xffffffffffffffff).run (.sampleReused [7, 7]) =
      .error (.truncated 0xffffffffffffffff 0 14) (.sampleReused [7, 7]) := by
  rcases operations_stay_inside with ⟨_, stay, along, _, _, _, registers⟩
  have inside : (Cursor.sampleReused [7, 7]).Inside := by decide
  have alike : (Cursor.sampleReused [7, 7]).Alike (.sampleReused []) := ⟨by decide, rfl⟩
  rcases stay {} Unit sampleScript _ _ inside alike with ⟨chained, agrees⟩
  have holds : Register.Holds (.sampleReused [7, 7]) := ⟨inside, by decide⟩
  have wide := (registers {} Unit (fun _ => pure ()) 0xffffffffffffffff 0 0).1 _ holds
  exact ⟨by decide, fun visit member => (along _ _ _ inside chained visit member).2.1, agrees,
    holds, wide.trans rfl⟩

end RpcWire
