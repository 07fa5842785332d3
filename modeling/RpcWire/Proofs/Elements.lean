import RpcWire.Proofs.Programs
import RpcWire.Proofs.Registers
import RpcWire.Proofs.Verdicts

namespace RpcWire

/-! # The elements of an array

An array is refused as a whole, before any of its elements is read, or its
elements are read one after the other until all are there or one fails. What is
read is told here round by round, and the rounds say all that an array is: its
values, its fault and the place where it stops. -/

namespace Reading

variable {α : Type} {item other : Nat → Reading α} {cursor next : Cursor}

/-! ## Rounds -/

/-- The reading of one element, from the place where it starts. -/
structure Round (α : Type) where
  index : Nat
  before : Cursor
  result : EStateM.Result Fault Cursor α

namespace Round

def after (round : Round α) : Cursor := place round.result

def fault? (round : Round α) : Option Fault := Reading.fault? round.result

def value? (round : Round α) : Option α :=
  match round.result with
  | .ok value _ => some value
  | .error _ _ => none

end Round

def rounds (item : Nat → Reading α) : (index count : Nat) → Cursor → List (Round α)
  | _, 0, _ => []
  | index, count + 1, cursor =>
      ⟨index, cursor, (item index).run cursor⟩ ::
        match (item index).run cursor with
        | .ok _ next => rounds item (index + 1) count next
        | .error _ _ => []

def fixedArrayRounds (count minimum : Nat) (item : Nat → Reading α) (cursor : Cursor) :
    List (Round α) :=
  match (checkCount count minimum).run cursor with
  | .ok () next => rounds item 0 count next
  | .error _ _ => []

def arrayRounds (minimum : Nat) (item : Nat → Reading α) (cursor : Cursor) : List (Round α) :=
  match word.run cursor with
  | .ok count next => fixedArrayRounds count.toNat minimum item next
  | .error _ _ => []

/-- The elements from `first` on, up to `count` of them, were read in these rounds:
in order, each from where the one before has stopped, and none behind one that has
failed. -/
structure Progress.Follows (progress : Progress α) (rounds : List (Round α))
    (item : Nat → Reading α) (first count : Nat) (start : Cursor) : Prop where
  inOrder : rounds.map Round.index = List.range' first rounds.length
  ran : ∀ round ∈ rounds, (item round.index).run round.before = round.result
  linked : start :: rounds.map Round.after = rounds.map Round.before ++ [progress.cursor]
  values : rounds.filterMap Round.value? = progress.items
  faults : rounds.map Round.fault? =
    progress.items.map (fun _ => none) ++ progress.fault.toList.map some
  all : progress.fault = none → progress.items.length = count
  early : progress.fault ≠ none → progress.items.length < count

theorem rounds_succ_of_ok {index : Nat} {value : α}
    (ran : (item index).run cursor = .ok value next) (count : Nat) :
    rounds item index (count + 1) cursor =
      ⟨index, cursor, .ok value next⟩ :: rounds item (index + 1) count next := by
  rw [rounds, ran]

theorem rounds_succ_of_error {index : Nat} {fault : Fault}
    (failed : (item index).run cursor = .error fault next) (count : Nat) :
    rounds item index (count + 1) cursor = [⟨index, cursor, .error fault next⟩] := by
  rw [rounds, failed]

theorem elements_succ_of_ok {index : Nat} {value : α}
    (ran : (item index).run cursor = .ok value next) (count : Nat) :
    elements item index (count + 1) cursor =
      ⟨value :: (elements item (index + 1) count next).items,
        (elements item (index + 1) count next).fault,
        (elements item (index + 1) count next).cursor⟩ := by
  rw [elements, ran]

theorem elements_succ_of_error {index : Nat} {fault : Fault}
    (failed : (item index).run cursor = .error fault next) (count : Nat) :
    elements item index (count + 1) cursor = ⟨[], some fault, next⟩ := by
  rw [elements, failed]

theorem follows_none (item : Nat → Reading α) (first : Nat) (start : Cursor) :
    Progress.Follows ⟨[], none, start⟩ [] item first 0 start where
  inOrder := rfl
  ran _ member := absurd member List.not_mem_nil
  linked := rfl
  values := rfl
  faults := rfl
  all _ := rfl
  early failed := absurd rfl failed

theorem follows_failed {first : Nat} {fault : Fault}
    (failed : (item first).run cursor = .error fault next) (count : Nat) :
    Progress.Follows ⟨[], some fault, next⟩ [⟨first, cursor, .error fault next⟩] item first
      (count + 1) cursor where
  inOrder := rfl
  ran round member := by
    rw [List.mem_singleton.mp member]
    exact failed
  linked := rfl
  values := rfl
  faults := rfl
  all none := by cases none
  early _ := Nat.succ_pos count

/-- One more round in front. -/
theorem Progress.Follows.cons {first count : Nat} {value : α} {later : List (Round α)}
    {items : List α} {fault : Option Fault} {final : Cursor}
    (follows : Progress.Follows ⟨items, fault, final⟩ later item (first + 1) count next)
    (ran : (item first).run cursor = .ok value next) :
    Progress.Follows ⟨value :: items, fault, final⟩ (⟨first, cursor, .ok value next⟩ :: later)
      item first (count + 1) cursor where
  inOrder := by
    rw [List.map_cons, follows.inOrder]
    rfl
  ran round member := by
    rcases List.mem_cons.mp member with rfl | behind
    · exact ran
    · exact follows.ran round behind
  linked := congrArg (cursor :: ·) follows.linked
  values := congrArg (value :: ·) follows.values
  faults := congrArg (none :: ·) follows.faults
  all complete := congrArg (· + 1) (follows.all complete)
  early failed := Nat.succ_lt_succ (follows.early failed)

/-- The rounds of the elements follow the recursion that reads them. -/
theorem follows_elements (item : Nat → Reading α) (first count : Nat) (start : Cursor) :
    (elements item first count start).Follows (rounds item first count start) item first count
      start := by
  induction count generalizing first start with
  | zero => exact follows_none item first start
  | succ count induction =>
      cases ran : (item first).run start with
      | ok value next =>
          rw [elements_succ_of_ok ran, rounds_succ_of_ok ran]
          exact (induction (first + 1) next).cons ran
      | error fault stopped =>
          rw [elements_succ_of_error ran, rounds_succ_of_error ran]
          exact follows_failed ran count

/-- Nothing counts but the rounds: a reading that does the same in each of them
makes the same of the array. -/
theorem elements_congr {first count : Nat} {start : Cursor}
    (same : ∀ round ∈ rounds item first count start,
      (other round.index).run round.before = round.result) :
    elements other first count start = elements item first count start := by
  induction count generalizing first start with
  | zero => rfl
  | succ count induction =>
      cases ran : (item first).run start with
      | ok value next =>
          rw [rounds_succ_of_ok ran, List.forall_mem_cons] at same
          rw [elements_succ_of_ok ran, elements_succ_of_ok same.1, induction same.2]
      | error fault stopped =>
          rw [rounds_succ_of_error ran, List.forall_mem_singleton] at same
          rw [elements_succ_of_error ran, elements_succ_of_error same]

/-! ## Counts -/

/-- What comes of an array of `count` elements, at the place where its count is
checked: it is refused there for the bytes that are missing, with no round at all, or
its elements are read in these rounds. -/
structure Progress.Judged (progress : Progress α) (rounds : List (Round α))
    (item : Nat → Reading α) (count minimum : Nat) (checked : Cursor) : Prop where
  refused : progress = ⟨[], some (.arrayTooLong count checked.remaining), checked⟩ ∧
    rounds = [] ↔ checked.remaining < count * max minimum 1
  accepted : count * max minimum 1 ≤ checked.remaining →
    count ≤ checked.remaining / max minimum 1 ∧ progress.Follows rounds item 0 count checked

theorem le_div_max_one_iff {count remaining minimum : Nat} :
    count ≤ remaining / max minimum 1 ↔ count * max minimum 1 ≤ remaining :=
  Nat.le_div_iff_mul_le (Nat.lt_of_lt_of_le Nat.zero_lt_one (Nat.le_max_right minimum 1))

theorem fixedArray_of_fits {count minimum : Nat}
    (fits : count * max minimum 1 ≤ cursor.remaining) (item : Nat → Reading α) :
    fixedArrayProgress count minimum item cursor = elements item 0 count cursor ∧
      fixedArrayRounds count minimum item cursor = rounds item 0 count cursor := by
  have ran : (checkCount count minimum).run cursor = .ok () cursor := by
    rw [run_checkCount, if_pos (le_div_max_one_iff.mpr fits)]
  rw [fixedArrayProgress, fixedArrayRounds, ran]
  exact ⟨rfl, rfl⟩

theorem fixedArray_of_many {count minimum : Nat}
    (many : cursor.remaining < count * max minimum 1) (item : Nat → Reading α) :
    fixedArrayProgress count minimum item cursor =
        ⟨[], some (.arrayTooLong count cursor.remaining), cursor⟩ ∧
      fixedArrayRounds count minimum item cursor = [] := by
  have above : ¬ count ≤ cursor.remaining / max minimum 1 :=
    fun below => Nat.not_le_of_lt many (le_div_max_one_iff.mp below)
  have failed : (checkCount count minimum).run cursor =
      .error (.arrayTooLong count cursor.remaining) cursor := by
    rw [run_checkCount, if_neg above]
  rw [fixedArrayProgress, fixedArrayRounds, failed]
  exact ⟨rfl, rfl⟩

theorem Progress.Follows.ne_nil_of_fault {progress : Progress α} {count : Nat} {start : Cursor}
    {made : List (Round α)} (follows : progress.Follows made item 0 count start) {fault : Fault}
    (failed : progress.fault = some fault) : made ≠ [] := by
  intro none
  have faults := follows.faults
  rw [none, failed] at faults
  simp at faults

theorem judged_fixedArray (count minimum : Nat) (item : Nat → Reading α) (cursor : Cursor) :
    (fixedArrayProgress count minimum item cursor).Judged
      (fixedArrayRounds count minimum item cursor) item count minimum cursor := by
  by_cases fits : count * max minimum 1 ≤ cursor.remaining
  · rcases fixedArray_of_fits fits item with ⟨progress, made⟩
    have follows := follows_elements item 0 count cursor
    rw [progress, made]
    refine ⟨?_, fun _ => ⟨le_div_max_one_iff.mpr fits, follows⟩⟩
    constructor
    · intro refused
      exact absurd refused.2 (follows.ne_nil_of_fault (congrArg Progress.fault refused.1))
    · intro many
      exact absurd fits (Nat.not_le_of_lt many)
  · have many := Nat.lt_of_not_le fits
    have refused := fixedArray_of_many many item
    exact ⟨⟨fun _ => many, fun _ => refused⟩, fun below => absurd below fits⟩

theorem fixedArrayProgress_congr {count minimum : Nat}
    (same : ∀ round ∈ fixedArrayRounds count minimum item cursor,
      (other round.index).run round.before = round.result) :
    fixedArrayProgress count minimum other cursor =
      fixedArrayProgress count minimum item cursor := by
  by_cases fits : count * max minimum 1 ≤ cursor.remaining
  · rw [(fixedArray_of_fits fits item).2] at same
    rw [(fixedArray_of_fits fits other).1, (fixedArray_of_fits fits item).1,
      elements_congr same]
  · have many := Nat.lt_of_not_le fits
    rw [(fixedArray_of_many many other).1, (fixedArray_of_many many item).1]

/-- Behind its count word an array is one of a known count. -/
theorem arrayProgress_of_word {count : UInt32} (ran : word.run cursor = .ok count next)
    (minimum : Nat) (item : Nat → Reading α) :
    arrayProgress minimum item cursor = fixedArrayProgress count.toNat minimum item next ∧
      arrayRounds minimum item cursor = fixedArrayRounds count.toNat minimum item next := by
  constructor
  · rw [arrayProgress, fixedArrayProgress, EStateM.run_bind, ran]
    simp only [EStateM.run_bind]
    cases (checkCount count.toNat minimum).run next <;> rfl
  · rw [arrayRounds, ran]

theorem arrayProgress_of_error {fault : Fault} (failed : word.run cursor = .error fault next)
    (minimum : Nat) (item : Nat → Reading α) :
    arrayProgress minimum item cursor = ⟨[], some fault, next⟩ ∧
      arrayRounds minimum item cursor = [] := by
  rw [arrayProgress, arrayRounds, EStateM.run_bind, failed]
  exact ⟨rfl, rfl⟩

theorem arrayProgress_congr {minimum : Nat}
    (same : ∀ round ∈ arrayRounds minimum item cursor,
      (other round.index).run round.before = round.result) :
    arrayProgress minimum other cursor = arrayProgress minimum item cursor := by
  cases ran : word.run cursor with
  | ok count next =>
      rw [(arrayProgress_of_word ran minimum item).2] at same
      rw [(arrayProgress_of_word ran minimum other).1, (arrayProgress_of_word ran minimum item).1,
        fixedArrayProgress_congr same]
  | error fault stopped =>
      rw [(arrayProgress_of_error ran minimum other).1,
        (arrayProgress_of_error ran minimum item).1]

/-! ## Arrays of words -/

theorem spelled_take {bytes : Bytes} {count : Nat} (enough : 4 * count ≤ bytes.length) :
    Words.spelled (bytes.take (4 * count)) =
      (List.range count).map fun index => bytes.wordAt (4 * index) := by
  induction count generalizing bytes with
  | zero => rfl
  | succ count induction =>
      match bytes, enough with
      | a :: b :: c :: d :: rest, enough =>
          have fewer : 4 * count ≤ rest.length := by
            simp only [List.length_cons] at enough
            omega
          have later := induction fewer
          rw [List.range_succ_eq_map, List.map_cons, List.map_map]
          exact congrArg (Word.ofBytes [a, b, c, d] :: ·) later

theorem run_words_of_fits {count : UInt32} (ran : word.run cursor = .ok count next)
    (fits : count.toNat * 4 ≤ next.remaining) :
    ∃ values, words.run cursor = .ok values (next.advance (4 * count.toNat)) ∧
      values.toList = (List.range count.toNat).map fun index => next.rest.wordAt (4 * index) := by
  have below : count.toNat ≤ next.remaining / 4 := by omega
  have enough : 4 * count.toNat ≤ next.rest.length := by
    rw [Cursor.length_rest]
    omega
  refine ⟨.wire (next.rest.take (4 * count.toNat)), ?_, spelled_take enough⟩
  rw [run_words, ran]
  simp only [if_pos below]

theorem run_words_eq_error_iff {count : UInt32} (ran : word.run cursor = .ok count next) :
    words.run cursor = .error (.arrayTooLong count.toNat next.remaining) next ↔
      next.remaining < count.toNat * 4 := by
  constructor
  · intro failed
    by_contra enough
    rcases run_words_of_fits ran (Nat.le_of_not_lt enough) with ⟨values, yielded, _⟩
    rw [yielded] at failed
    cases failed
  · intro many
    have above : ¬ count.toNat ≤ next.remaining / 4 := by omega
    rw [run_words, ran]
    simp only [if_neg above]

theorem tells_arrayTooLong (count remaining : Nat) :
    (Fault.arrayTooLong count remaining).code = some .invalidLength ∧
      (Fault.arrayTooLong count remaining).value.toNat = min count 0xffffffff := by
  refine ⟨rfl, UInt32.toNat_ofNat_of_lt' ?_⟩
  unfold UInt32.size
  omega

/-- An array is refused just when its elements cannot all be in what remains, and
before any of them is read. Otherwise they are read in order, up to the first that
fails. In registers of 64 bits the judgement is the same for every count and every
size of the elements. -/
theorem arrays_judged_by_count :
    (∀ (α : Type) (count minimum : Nat) (item : Nat → Reading α) (cursor : Cursor),
      (fixedArray count minimum item).run cursor =
        (fixedArrayProgress count minimum item cursor).result ∧
      (fixedArrayProgress count minimum item cursor).Judged
        (fixedArrayRounds count minimum item cursor) item count minimum cursor ∧
      ∀ other : Nat → Reading α, (∀ round ∈ fixedArrayRounds count minimum item cursor,
          (other round.index).run round.before = round.result) →
        fixedArrayProgress count minimum other cursor =
          fixedArrayProgress count minimum item cursor) ∧
    (∀ (α : Type) (minimum : Nat) (item : Nat → Reading α) (cursor next : Cursor),
      (array minimum item).run cursor = (arrayProgress minimum item cursor).result ∧
      (∀ count, word.run cursor = .ok count next →
        (arrayProgress minimum item cursor).Judged (arrayRounds minimum item cursor) item
          count.toNat minimum next) ∧
      (∀ fault, word.run cursor = .error fault next →
        arrayProgress minimum item cursor = ⟨[], some fault, next⟩ ∧
          arrayRounds minimum item cursor = []) ∧
      ∀ other : Nat → Reading α, (∀ round ∈ arrayRounds minimum item cursor,
          (other round.index).run round.before = round.result) →
        arrayProgress minimum other cursor = arrayProgress minimum item cursor) ∧
    (∀ (cursor next : Cursor) (count : UInt32), word.run cursor = .ok count next →
      (words.run cursor = .error (.arrayTooLong count.toNat next.remaining) next ↔
        next.remaining < count.toNat * 4) ∧
      (count.toNat * 4 ≤ next.remaining → ∃ values,
        words.run cursor = .ok values (next.advance (4 * count.toNat)) ∧
        values.toList =
          (List.range count.toNat).map fun index => next.rest.wordAt (4 * index))) ∧
    (∀ count remaining, (Fault.arrayTooLong count remaining).code = some .invalidLength ∧
      (Fault.arrayTooLong count remaining).value.toNat = min count 0xffffffff) ∧
    ∀ (α : Type) (count minimum : UInt64) (item : Nat → Reading α),
      Register.Does (Register.array minimum item) (array minimum.toNat item) ∧
      Register.Does (Register.fixedArray count minimum item)
        (fixedArray count.toNat minimum.toNat item) ∧
      Register.Does Register.words words := by
  refine ⟨?_, ?_, ?_, tells_arrayTooLong, ?_⟩
  · intro α count minimum item cursor
    exact ⟨rfl, judged_fixedArray count minimum item cursor,
      fun other same => fixedArrayProgress_congr same⟩
  · intro α minimum item cursor next
    refine ⟨rfl, ?_, ?_, fun other same => arrayProgress_congr same⟩
    · intro count ran
      rcases arrayProgress_of_word ran minimum item with ⟨progress, made⟩
      rw [progress, made]
      exact judged_fixedArray count.toNat minimum item next
    · exact fun fault failed => arrayProgress_of_error failed minimum item
  · intro cursor next count ran
    exact ⟨run_words_eq_error_iff ran, run_words_of_fits ran⟩
  · exact fun α count minimum item => ⟨Register.does_array minimum item,
      Register.does_fixedArray count minimum item, Register.does_words⟩

/-- A count of two and behind it two lists of words. The second list tells a count of
four where only two words are left. -/
def sampleLists : Cursor :=
  .ofBytes ([2, 1, 9, 4, 7, 8].flatMap Word.toBytes)

theorem arrays_judged_by_count_sample :
    let lists : Nat → Reading (List UInt32) := fun _ => array 4 fun _ => word
    let checked := sampleLists.advance 4
    word.run sampleLists = .ok 2 checked ∧
    (arrayProgress 4 lists sampleLists).items = [[9]] ∧
    (arrayProgress 4 lists sampleLists).fault = some (.arrayTooLong 4 8) ∧
    (arrayRounds 4 lists sampleLists).map (fun round => (round.index, round.before.offset)) =
      [(0, 4), (1, 12)] ∧
    (arrayProgress 4 lists sampleLists).Follows (arrayRounds 4 lists sampleLists) lists 0 2
      checked ∧
    ((arrayProgress 0x8000000000000000 lists sampleLists).items = [] ∧
      arrayRounds 0x8000000000000000 lists sampleLists = []) ∧
    Register.Holds sampleLists ∧
    (Register.array 0x8000000000000000 lists).run sampleLists =
      .error (.arrayTooLong 2 20) checked := by
  intro lists checked
  have ran : word.run sampleLists = .ok 2 checked := rfl
  have holds : Register.Holds sampleLists := ⟨by decide, by decide⟩
  rcases arrays_judged_by_count with ⟨_, arrays, _, _, registers⟩
  rcases arrays (List UInt32) 4 lists sampleLists checked with ⟨_, judged, _, _⟩
  rcases arrays (List UInt32) 0x8000000000000000 lists sampleLists checked with
    ⟨result, judgedWide, _, _⟩
  rcases (judgedWide 2 ran).refused.mpr (by decide) with ⟨refused, none⟩
  refine ⟨ran, by decide, by decide, by decide, ((judged 2 ran).accepted (by decide)).2,
    ⟨congrArg Progress.items refused, none⟩, holds, ?_⟩
  have does := (registers (List UInt32) 0 0x8000000000000000 lists).1 sampleLists holds
  have wide : (0x8000000000000000 : UInt64).toNat = 0x8000000000000000 := rfl
  rw [does, wide, result, refused]
  rfl

end Reading

end RpcWire
