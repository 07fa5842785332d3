import RpcWire.Proofs.Writes
import RpcWire.WriteScript

namespace RpcWire

/-! # Operations on a region

What is left of a buffer when any operations have been run on it, one after the
other, whether they failed or not. The region only ever grows by what an
operation appends, and the bytes behind it are those that the buffer had. -/

/-! ## Growing regions -/

namespace Region

/-- Bytes of a certain kind have been appended, for which there was room. -/
def Grows (pieces : Bytes → Prop) (before after : Region) : Prop :=
  ∃ part, pieces part ∧ part.length ≤ before.free.length ∧ after = before.extend part

/-- A kind of bytes that holds of no bytes at all, and of two parts together when it
holds of each. -/
structure Joins (pieces : Bytes → Prop) : Prop where
  nil : pieces []
  append : ∀ {front back}, pieces front → pieces back → pieces (front ++ back)

theorem joins_any : Joins fun _ => True where
  nil := trivial
  append _ _ := trivial

def wholeWords (bytes : Bytes) : Prop := 4 ∣ bytes.length

theorem joins_wholeWords : Joins wholeWords where
  nil := Nat.dvd_zero 4
  append front back := by
    rw [wholeWords, List.length_append]
    exact Nat.dvd_add front back

variable {pieces : Bytes → Prop} {first second third : Region}

theorem Grows.refl (joins : Joins pieces) (region : Region) : region.Grows pieces region :=
  ⟨[], joins.nil, Nat.zero_le _, (Writing.extend_nil region).symm⟩

theorem Grows.trans (joins : Joins pieces) (front : first.Grows pieces second)
    (back : second.Grows pieces third) : first.Grows pieces third := by
  rcases front with ⟨frontPart, frontPiece, frontFits, rfl⟩
  rcases back with ⟨backPart, backPiece, backFits, rfl⟩
  rw [extend, List.length_drop] at backFits
  refine ⟨frontPart ++ backPart, joins.append frontPiece backPiece, ?_, ?_⟩
  · rw [List.length_append]
    omega
  · rw [extend_extend]

theorem Grows.keeps_written (grows : first.Grows pieces second) :
    first.written <+: second.written := by
  rcases grows with ⟨part, _, _, rfl⟩
  exact List.prefix_append _ _

end Region

/-! ## Composed writings -/

namespace Writing

open Region

variable {α β : Type} {pieces : Bytes → Prop}

/-- Whatever a caller makes of the operations: one after the other, chosen by
what the region holds, given up, or recovered from a fault. All that is written
is written in pieces of a certain kind. -/
inductive Composed (pieces : Bytes → Prop) : {α : Type} → Writing α → Prop
  | yield {α : Type} (value : α) : Composed pieces (pure value)
  | fail {α : Type} (fault : Fault) : Composed pieces (throw fault : Writing α)
  | look : Composed pieces (get : Writing Region)
  | piece {data : Bytes} (isPiece : pieces data) : Composed pieces (raw data)
  | bind {α β : Type} {first : Writing α} {second : α → Writing β}
      (front : Composed pieces first) (back : ∀ value, Composed pieces (second value)) :
      Composed pieces (first >>= second)
  | recover {α : Type} {first : Writing α} {second : Fault → Writing α}
      (front : Composed pieces first) (back : ∀ fault, Composed pieces (second fault)) :
      Composed pieces (tryCatch first second)

/-- The region that a writing leaves, whether it fails or not. -/
def after (writing : Writing α) (region : Region) : Region :=
  match writing.run region with
  | .ok _ next => next
  | .error _ next => next

theorem after_bind (first : Writing α) (second : α → Writing β) (region : Region) :
    (first >>= second).after region =
      match first.run region with
      | .ok value next => (second value).after next
      | .error _ next => next := by
  rw [after, EStateM.run_bind]
  cases first.run region <;> rfl

theorem after_tryCatch (first : Writing α) (second : Fault → Writing α) (region : Region) :
    (tryCatch first second).after region =
      match first.run region with
      | .ok _ next => next
      | .error fault next => (second fault).after next := by
  have run : (tryCatch first second).run region =
      match first.run region with
      | .ok value next => .ok value next
      | .error fault next => (second fault).run next := by
    change EStateM.tryCatch first second region = _
    rw [EStateM.tryCatch, EStateM.run]
    cases first region <;> rfl
  rw [after, run]
  cases first.run region <;> rfl

theorem grows_raw (joins : Joins pieces) {data : Bytes} (isPiece : pieces data)
    (region : Region) : region.Grows pieces ((raw data).after region) := by
  rw [after, run_raw]
  by_cases fits : data.length ≤ region.free.length
  · rw [if_pos fits]
    exact ⟨data, isPiece, fits, rfl⟩
  · rw [if_neg fits]
    exact .refl joins region

/-- One step of each kind, so that every writing that is composed of them only
appends. -/
theorem Composed.grows (joins : Joins pieces) {writing : Writing α}
    (composed : writing.Composed pieces) (region : Region) :
    region.Grows pieces (writing.after region) := by
  induction composed generalizing region with
  | yield value => exact .refl joins region
  | fail fault => exact .refl joins region
  | look => exact .refl joins region
  | piece isPiece => exact grows_raw joins isPiece region
  | @bind α β first second _ _ inductionFirst inductionSecond =>
      have grown := inductionFirst region
      rw [after] at grown
      rw [after_bind]
      cases ran : first.run region with
      | ok value next =>
          rw [ran] at grown
          exact grown.trans joins (inductionSecond value next)
      | error fault next =>
          rw [ran] at grown
          exact grown
  | @recover α first second _ _ inductionFirst inductionSecond =>
      have grown := inductionFirst region
      rw [after] at grown
      rw [after_tryCatch]
      cases ran : first.run region with
      | ok value next =>
          rw [ran] at grown
          exact grown
      | error fault next =>
          rw [ran] at grown
          exact grown.trans joins (inductionSecond fault next)

/-- The region behind a sequence of operations, each of which starts where the
one before has stopped, whether it failed or not. -/
def afterAll (operations : List (Writing Unit)) (region : Region) : Region :=
  operations.foldl (fun region operation => operation.after region) region

theorem grows_afterAll (joins : Joins pieces) {operations : List (Writing Unit)}
    (composed : ∀ operation ∈ operations, operation.Composed pieces) (region : Region) :
    region.Grows pieces (afterAll operations region) := by
  induction operations generalizing region with
  | nil => exact .refl joins region
  | cons operation rest induction =>
      have first := (composed operation List.mem_cons_self).grows joins region
      have later := induction (fun other member => composed other (List.mem_cons_of_mem _ member))
        (operation.after region)
      exact first.trans joins later

/-! ## The operations are composed

All but raw data is written in whole words. -/

section

variable (whole : ∀ bytes, wholeWords bytes → pieces bytes)

theorem composed_countWord (count : Nat) : (countWord count).Composed pieces := by
  unfold countWord
  split
  · exact .yield _
  · exact .fail _

theorem composed_reserve (count : Nat) : (reserve count).Composed pieces := by
  apply Composed.look.bind
  intro region
  split
  · exact .yield ()
  · exact .fail _

/-- The elements of an array may be written in any way that is composed itself. -/
theorem composed_fixedArray {item : α → Writing Unit} {items : List α}
    (each : ∀ value ∈ items, (item value).Composed pieces) :
    (fixedArray item items).Composed pieces := by
  induction items with
  | nil => exact .yield ()
  | cons first rest induction =>
      apply (each first List.mem_cons_self).bind
      intro _
      exact induction fun value member => each value (List.mem_cons_of_mem _ member)

include whole

theorem composed_word (value : UInt32) : (word value).Composed pieces :=
  .piece (whole _ (Nat.dvd_refl 4))

theorem composed_double (value : UInt64) : (double value).Composed pieces := by
  rw [double_eq_raw]
  exact .piece (whole _ ⟨2, rfl⟩)

theorem composed_fixed (data : Bytes) : (fixed data).Composed pieces := by
  rw [fixed_eq_raw]
  apply Composed.piece
  apply whole
  rw [wholeWords, length_padded]
  exact four_dvd_add_padLength data.length

theorem composed_counted (data : Bytes) : (counted data).Composed pieces := by
  apply (composed_countWord data.length).bind
  intro length
  apply (composed_reserve _).bind
  intro _
  exact (composed_word whole length).bind fun _ => composed_fixed whole data

theorem composed_words (values : Words) : (words values).Composed pieces := by
  apply (composed_countWord values.count).bind
  intro count
  apply (composed_reserve _).bind
  intro _
  apply (composed_word whole count).bind
  intro _
  exact composed_fixedArray fun value _ => composed_word whole value

theorem composed_array {item : α → Writing Unit} {items : List α}
    (each : ∀ value ∈ items, (item value).Composed pieces) :
    (array item items).Composed pieces := by
  apply (composed_countWord items.length).bind
  intro count
  exact (composed_word whole count).bind fun _ => composed_fixedArray each

end

/-! ## Single pieces -/

/-- The whole piece is appended, or a fault leaves the region as it was. -/
def AllOrNothing (writing : Writing Unit) (piece : Bytes) : Prop :=
  ∀ region : Region, writing.run region = .ok () (region.extend piece) ∨
    ∃ fault, writing.run region = .error fault region

theorem allOrNothing_raw (data : Bytes) : (raw data).AllOrNothing data := by
  intro region
  rw [run_raw]
  split
  · exact .inl rfl
  · exact .inr ⟨_, rfl⟩

theorem allOrNothing_double (value : UInt64) :
    (double value).AllOrNothing (Word.doubleToBytes value) := by
  rw [double_eq_raw]
  exact allOrNothing_raw _

theorem allOrNothing_fixed (data : Bytes) : (fixed data).AllOrNothing (padded data) := by
  rw [fixed_eq_raw]
  exact allOrNothing_raw _

theorem allOrNothing_counted (data : Bytes) :
    (counted data).AllOrNothing (Word.toBytes (UInt32.ofNat data.length) ++ padded data) := by
  intro region
  rw [run_counted]
  split
  · exact allOrNothing_raw _ region
  · exact .inr ⟨_, rfl⟩

theorem allOrNothing_words (values : Words) :
    (words values).AllOrNothing
      (Word.toBytes (UInt32.ofNat values.count) ++ values.toBytes) := by
  intro region
  rw [run_words]
  split
  · exact allOrNothing_raw _ region
  · exact .inr ⟨_, rfl⟩

end Writing

open Writing Region

section

variable {pieces : Bytes → Prop} (whole : ∀ bytes, wholeWords bytes → pieces bytes)
include whole

theorem UnixIdentity.composed_write (identity : UnixIdentity) :
    identity.write.Composed pieces :=
  (composed_word whole _).bind fun _ =>
  (composed_counted whole _).bind fun _ =>
  (composed_word whole _).bind fun _ =>
  (composed_word whole _).bind fun _ =>
  composed_words whole _

theorem Credential.composed_write (credential : Credential) :
    credential.write.Composed pieces := by
  apply (composed_word whole credential.flavor).bind
  intro _
  cases credential with
  | sys identity => exact (composed_word whole _).bind fun _ => identity.composed_write whole
  | none body => exact composed_counted whole body
  | short body => exact composed_counted whole body
  | other flavor body plain => exact composed_counted whole body

theorem VersionRange.composed_write (range : VersionRange) : range.write.Composed pieces :=
  (composed_word whole _).bind fun _ => composed_word whole _

/-- Results are raw data. -/
theorem Outcome.composed_write (outcome : Outcome) (tail : ∀ data ∈ outcome.tail?, pieces data) :
    outcome.write.Composed pieces := by
  apply (composed_word whole _).bind
  intro _
  cases outcome with
  | success results => exact .piece (tail results rfl)
  | programMismatch versions => exact versions.composed_write whole
  | programUnavailable => exact .yield ()
  | procedureUnavailable => exact .yield ()
  | garbageArguments => exact .yield ()
  | systemError => exact .yield ()

theorem Rejection.composed_write (rejection : Rejection) :
    rejection.write.Composed pieces := by
  apply (composed_word whole _).bind
  intro _
  cases rejection with
  | rpcMismatch versions => exact versions.composed_write whole
  | authError status => exact composed_word whole _

theorem Reply.composed_write (reply : Reply) (tail : ∀ data ∈ reply.tail?, pieces data) :
    reply.write.Composed pieces := by
  apply (composed_word whole _).bind
  intro _
  cases reply with
  | accepted verifier outcome =>
      apply (verifier.composed_write whole).bind
      intro _
      exact outcome.composed_write whole tail
  | denied rejection => exact rejection.composed_write whole

/-- Arguments are raw data. -/
theorem Call.composed_write (call : Call) (tail : pieces call.arguments) :
    call.write.Composed pieces :=
  (composed_word whole _).bind fun _ =>
  (composed_word whole _).bind fun _ =>
  (composed_word whole _).bind fun _ =>
  (composed_word whole _).bind fun _ =>
  (call.credential.composed_write whole).bind fun _ =>
  (call.verifier.composed_write whole).bind fun _ =>
  .piece tail

end

namespace WriteScript

/-! ## Scripts -/

namespace Step

mutual

/-- The data that a step writes as it stands, without a length or padding. -/
def rawData : Step → List Bytes
  | raw data => [data]
  | call value => [value.arguments]
  | outcome value => value.tail?.toList
  | reply value => value.tail?.toList
  | array items => rawDataAll items
  | fixedArray items => rawDataAll items
  | word _ | int _ | double _ | long _ | bool _ | counted _ | string _ | fixed _ | words _ |
    identity _ | credential _ | rejection _ | claim _ | refuse _ => []

def rawDataAll : List Step → List Bytes
  | [] => []
  | step :: rest => step.rawData ++ rawDataAll rest

end

mutual

theorem composed_write {pieces : Bytes → Prop} (whole : ∀ bytes, wholeWords bytes → pieces bytes)
    (step : Step) (isPiece : ∀ data ∈ step.rawData, pieces data) :
    step.write.Composed pieces := by
  cases step with
  | word value => exact composed_word whole value
  | int value => exact composed_word whole value.toUInt32
  | double value => exact composed_double whole value
  | long value => exact composed_double whole value.toUInt64
  | bool value => exact composed_word whole _
  | counted data => exact composed_counted whole data
  | string data => exact composed_counted whole data
  | fixed data => exact composed_fixed whole data
  | raw data => exact .piece (isPiece data (by simp [rawData]))
  | words values => exact composed_words whole values
  | array items =>
      rw [write_array]
      exact composed_array whole (composed_elements whole items (by simpa [rawData] using isPiece))
  | fixedArray items =>
      rw [write_fixedArray]
      exact composed_fixedArray (composed_elements whole items (by simpa [rawData] using isPiece))
  | identity value => exact value.composed_write whole
  | credential value => exact value.composed_write whole
  | call value => exact value.composed_write whole (isPiece _ (by simp [rawData]))
  | outcome value => exact value.composed_write whole (by simpa [rawData] using isPiece)
  | rejection value => exact value.composed_write whole
  | reply value => exact value.composed_write whole (by simpa [rawData] using isPiece)
  | claim count => exact (composed_countWord count).bind fun _ => .yield ()
  | refuse fault => exact .fail fault

theorem composed_elements {pieces : Bytes → Prop}
    (whole : ∀ bytes, wholeWords bytes → pieces bytes) (items : List Step)
    (isPiece : ∀ data ∈ rawDataAll items, pieces data) :
    ∀ step ∈ items, step.write.Composed pieces := by
  cases items with
  | nil => exact fun _ member => absurd member List.not_mem_nil
  | cons step rest =>
      rw [rawDataAll, List.forall_mem_append] at isPiece
      exact List.forall_mem_cons.mpr
        ⟨composed_write whole step isPiece.1, composed_elements whole rest isPiece.2⟩

end

/-- The bytes of a step that is written in one piece. -/
def piece? : Step → Option Bytes
  | word value => some (Word.toBytes value)
  | int value => some (Word.toBytes value.toUInt32)
  | double value => some (Word.doubleToBytes value)
  | long value => some (Word.doubleToBytes value.toUInt64)
  | bool value => some (Word.toBytes (if value then 1 else 0))
  | counted data | string data =>
      some (Word.toBytes (UInt32.ofNat data.length) ++ padded data)
  | fixed data => some (padded data)
  | raw data => some data
  | words values => some (Word.toBytes (UInt32.ofNat values.count) ++ values.toBytes)
  | array _ | fixedArray _ | identity _ | credential _ | call _ | outcome _ | rejection _ |
    reply _ | claim _ | refuse _ => none

theorem allOrNothing_write {step : Step} {piece : Bytes} (single : step.piece? = some piece) :
    step.write.AllOrNothing piece := by
  cases step <;> cases single
  case word value => exact allOrNothing_raw _
  case int value => exact allOrNothing_raw _
  case double value => exact allOrNothing_double value
  case long value => exact allOrNothing_double value.toUInt64
  case bool value => exact allOrNothing_raw _
  case counted data => exact allOrNothing_counted data
  case string data => exact allOrNothing_counted data
  case fixed data => exact allOrNothing_fixed data
  case raw => exact allOrNothing_raw piece
  case words values => exact allOrNothing_words values

end Step

theorem finish_eq_afterAll (steps : List Step) (region : Region) :
    finish steps region = afterAll (steps.map Step.write) region := by
  rw [afterAll, List.foldl_map, finish]
  congr
  funext before step
  rw [Step.run, after]
  cases step.write.run before <;> rfl

end WriteScript

/-! ## Operations on a buffer -/

/-- A region that has been filled from the front of this buffer, whose other
bytes are as they were. -/
structure Region.FilledFrom (region : Region) (buffer : Bytes) : Prop where
  fits : region.written.length ≤ buffer.length
  sameLength : region.buffer.length = buffer.length
  behind (position : Nat) (free : region.written.length ≤ position) :
    region.buffer[position]? = buffer[position]?

namespace Writing

variable {operations : List (Writing Unit)}

theorem filledFrom_afterAll
    (composed : ∀ operation ∈ operations, operation.Composed fun _ => True) (buffer : Bytes) :
    (afterAll operations (.ofBuffer buffer)).FilledFrom buffer := by
  rcases grows_afterAll joins_any composed (.ofBuffer buffer) with ⟨part, _, fits, grown⟩
  have partFits : part.length ≤ buffer.length := fits
  have left : afterAll operations (.ofBuffer buffer) = ⟨part, buffer.drop part.length⟩ := grown
  have bufferEq : (afterAll operations (.ofBuffer buffer)).buffer =
      part ++ buffer.drop part.length := by
    rw [left, Region.buffer]
  constructor
  case fits =>
    rw [left]
    exact partFits
  case sameLength =>
    rw [bufferEq, List.length_append, List.length_drop]
    omega
  case behind =>
    intro position free
    rw [left] at free
    rw [bufferEq, List.getElem?_append_right free, List.getElem?_drop, Nat.add_sub_cancel' free]

/-- What has been written stays in front of what later operations write. -/
theorem written_afterAll_append {earlier later : List (Writing Unit)}
    (composed : ∀ operation ∈ later, operation.Composed fun _ => True) (region : Region) :
    (afterAll earlier region).written <+: (afterAll (earlier ++ later) region).written := by
  have split : afterAll (earlier ++ later) region = afterAll later (afterAll earlier region) :=
    List.foldl_append
  rw [split]
  exact (grows_afterAll joins_any composed _).keeps_written

theorem four_dvd_written_afterAll
    (composed : ∀ operation ∈ operations, operation.Composed wholeWords) (buffer : Bytes) :
    4 ∣ (afterAll operations (.ofBuffer buffer)).written.length := by
  rcases grows_afterAll joins_wholeWords composed (.ofBuffer buffer) with ⟨part, whole, _, grown⟩
  rw [grown]
  exact whole

/-- Operations on a buffer fill it from the front, one behind the other, whether
they fail or not, and the rest of it stays as it was. Every step of a script and
every array over such elements is an operation. Where raw data comes in whole
words, only whole words are written. A value of one piece is written whole or
not at all, and a count without a word is found whatever the region. -/
theorem operations_only_append :
    (∀ pieces : Bytes → Prop, (∀ bytes, wholeWords bytes → pieces bytes) →
      (∀ step : WriteScript.Step, (∀ data ∈ step.rawData, pieces data) →
        step.write.Composed pieces) ∧
      (∀ (α : Type) (item : α → Writing Unit) (items : List α),
        (∀ value ∈ items, (item value).Composed pieces) →
        (array item items).Composed pieces ∧ (fixedArray item items).Composed pieces)) ∧
    (∀ (steps : List WriteScript.Step) (region : Region),
      WriteScript.finish steps region = afterAll (steps.map WriteScript.Step.write) region) ∧
    (∀ (buffer : Bytes) (operations : List (Writing Unit)),
      (∀ operation ∈ operations, operation.Composed fun _ => True) →
      (afterAll operations (.ofBuffer buffer)).FilledFrom buffer ∧
      ∀ earlier later, operations = earlier ++ later →
        (afterAll earlier (.ofBuffer buffer)).written <+:
          (afterAll operations (.ofBuffer buffer)).written) ∧
    (∀ (buffer : Bytes) (operations : List (Writing Unit)),
      (∀ operation ∈ operations, operation.Composed wholeWords) →
      4 ∣ (afterAll operations (.ofBuffer buffer)).written.length) ∧
    (∀ (step : WriteScript.Step) (piece : Bytes), step.piece? = some piece →
      step.write.AllOrNothing piece) ∧
    (∀ (count : Nat) (region : Region), UInt32.size ≤ count →
      (Fault.countTooWide count).code = some .invalidLength ∧
      (WriteScript.Step.claim count).write.run region = .error (.countTooWide count) region ∧
      (∀ data : Bytes, data.length = count →
        (counted data).run region = .error (.countTooWide count) region) ∧
      (∀ values : Words, values.count = count →
        (words values).run region = .error (.countTooWide count) region) ∧
      (∀ (α : Type) (item : α → Writing Unit) (items : List α), items.length = count →
        (array item items).run region = .error (.countTooWide count) region)) := by
  refine ⟨?_, WriteScript.finish_eq_afterAll, ?_, ?_, ?_, ?_⟩
  · intro pieces whole
    refine ⟨WriteScript.Step.composed_write whole, fun α item items each => ?_⟩
    exact ⟨composed_array whole each, composed_fixedArray each⟩
  · intro buffer operations composed
    refine ⟨filledFrom_afterAll composed buffer, ?_⟩
    rintro earlier later rfl
    apply written_afterAll_append
    exact fun operation member => composed operation (List.mem_append_right earlier member)
  · exact fun buffer operations composed => four_dvd_written_afterAll composed buffer
  · exact fun step piece single => WriteScript.Step.allOrNothing_write single
  · intro count region tooWide
    have refused : ¬ count < UInt32.size := Nat.not_lt_of_le tooWide
    refine ⟨rfl, ?_, ?_, ?_, ?_⟩
    · change (countWord count >>= fun _ => pure ()).run region = _
      rw [EStateM.run_bind, run_countWord, if_neg refused]
    · rintro data rfl
      rw [run_counted, if_neg refused]
    · rintro values rfl
      rw [run_words, if_neg refused]
    · rintro α item items rfl
      rw [run_array, if_neg refused]

/-- A word, data that is too long for the rest of the buffer, and an array with
an element that falls back on a word where a double word has no room. -/
def sampleOperations : List (Writing Unit) :=
  [word 7, counted [1, 2, 3, 4, 5],
    array (fun value => tryCatch (double value) fun _ => word 1) [3]]

theorem composed_sampleOperations {pieces : Bytes → Prop}
    (whole : ∀ bytes, wholeWords bytes → pieces bytes) :
    ∀ operation ∈ sampleOperations, operation.Composed pieces := by
  have element (value : UInt64) :
      (tryCatch (double value) fun _ => word 1 : Writing Unit).Composed pieces :=
    (composed_double whole value).recover fun _ => composed_word whole 1
  intro operation member
  simp only [sampleOperations, List.mem_cons, List.not_mem_nil, or_false] at member
  rcases member with rfl | rfl | rfl
  · exact composed_word whole 7
  · exact composed_counted whole [1, 2, 3, 4, 5]
  · exact composed_array whole fun value _ => element value

theorem operations_only_append_sample :
    (∀ operation ∈ sampleOperations, operation.Composed wholeWords) ∧
      afterAll sampleOperations (.ofBuffer (List.replicate 14 9)) =
        ⟨[0, 0, 0, 7, 0, 0, 0, 1, 0, 0, 0, 1], [9, 9]⟩ ∧
      (afterAll sampleOperations (.ofBuffer (List.replicate 14 9))).FilledFrom
        (List.replicate 14 9) ∧
      4 ∣ (afterAll sampleOperations (.ofBuffer (List.replicate 14 9))).written.length := by
  rcases operations_only_append with ⟨_, _, filled, whole, _, _⟩
  have composed := composed_sampleOperations fun _ isWhole => isWhole
  have any : ∀ operation ∈ sampleOperations, operation.Composed fun _ => True :=
    composed_sampleOperations fun _ _ => trivial
  exact ⟨composed, by decide, (filled _ _ any).1, whole _ _ composed⟩

end Writing

end RpcWire
