import Mathlib.Data.List.Forall2
import RpcWire.Writing

namespace RpcWire

/-! # Layouts

A layout says place by place what stands on the wire: a certain byte, or
padding. A writer puts zero at a place of padding. A reader takes whatever it
finds there, unless it is strict. -/

inductive Cell where
  | byte (value : UInt8)
  | padding
deriving DecidableEq

namespace Cell

def Admits (strict : Bool) : Cell → UInt8 → Prop
  | byte value, found => found = value
  | padding, found => strict = true → found = 0

def written : Cell → UInt8
  | byte value => value
  | padding => 0

theorem admits_written (strict : Bool) (cell : Cell) : cell.Admits strict cell.written := by
  cases cell with
  | byte value => rfl
  | padding => exact fun _ => rfl

/-- Strictness leaves one byte for each place, the one that is written there. -/
theorem admits_iff {strict : Bool} {cell : Cell} {found : UInt8} :
    cell.Admits strict found ↔
      cell.Admits false found ∧ (strict = true → found = cell.written) := by
  cases cell with
  | byte value =>
      constructor
      · intro equal
        exact ⟨equal, fun _ => equal⟩
      · intro admitted
        exact admitted.1
  | padding => simp [Admits, written]

end Cell

abbrev Layout := List Cell

namespace Layout

/-! ## The parts of a layout -/

def data (bytes : Bytes) : Layout := bytes.map .byte

def word (value : UInt32) : Layout := data (Word.toBytes value)

def tag [Tag Kind] [DecidableEq Kind] (kind : Kind) : Layout := word (Tag.toWord kind)

/-- The padding behind data of the given length. -/
def padding (length : Nat) : Layout := List.replicate (padLength length) .padding

def counted (bytes : Bytes) : Layout :=
  word (UInt32.ofNat bytes.length) ++ data bytes ++ padding bytes.length

def words (values : Words) : Layout :=
  word (UInt32.ofNat values.count) ++ data values.toBytes

example : counted [7] =
    [.byte 0, .byte 0, .byte 0, .byte 1, .byte 7, .padding, .padding, .padding] := rfl

@[simp] theorem length_data (bytes : Bytes) : (data bytes).length = bytes.length := by
  simp [data]

@[simp] theorem length_word (value : UInt32) : (word value).length = 4 := rfl

@[simp] theorem length_tag [Tag Kind] [DecidableEq Kind] (kind : Kind) :
    (tag kind).length = 4 := rfl

@[simp] theorem length_padding (length : Nat) :
    (padding length).length = padLength length := by
  simp [padding]

@[simp] theorem length_counted (bytes : Bytes) :
    (counted bytes).length = countedSize bytes.length := by
  simp only [counted, countedSize, List.length_append, length_word, length_data, length_padding]

@[simp] theorem length_words (values : Words) :
    (words values).length = 4 + 4 * values.count := by
  simp [words]

/-! ## What is written -/

def written (layout : Layout) : Bytes := layout.map Cell.written

@[simp] theorem length_written (layout : Layout) :
    (written layout).length = layout.length := by
  simp [written]

@[simp] theorem written_append (first second : Layout) :
    written (first ++ second) = written first ++ written second := by
  simp [written]

@[simp] theorem written_data (bytes : Bytes) : written (data bytes) = bytes := by
  simp [written, data, Function.comp_def, Cell.written]

@[simp] theorem written_word (value : UInt32) : written (word value) = Word.toBytes value :=
  written_data _

@[simp] theorem written_padding (length : Nat) :
    written (padding length) = Bytes.zeros (padLength length) := by
  simp [written, padding, Cell.written, Bytes.zeros]

/-! ## What is taken -/

/-- The bytes fill the layout, each at its place. -/
def Matches (strict : Bool) (layout : Layout) (bytes : Bytes) : Prop :=
  List.Forall₂ (Cell.Admits strict) layout bytes

variable {strict : Bool} {layout : Layout} {bytes : Bytes}

theorem Matches.length_eq (fills : layout.Matches strict bytes) :
    bytes.length = layout.length :=
  (List.Forall₂.length_eq fills).symm

theorem Matches.append {first second : Layout} {front back : Bytes}
    (fillsFirst : first.Matches strict front) (fillsSecond : second.Matches strict back) :
    (first ++ second).Matches strict (front ++ back) :=
  List.rel_append fillsFirst fillsSecond

theorem matches_append_iff {first second : Layout} :
    (first ++ second).Matches strict bytes ↔
      ∃ front back, bytes = front ++ back ∧
        first.Matches strict front ∧ second.Matches strict back := by
  constructor
  · intro fills
    refine ⟨bytes.take first.length, bytes.drop first.length,
      (List.take_append_drop _ _).symm, ?_, ?_⟩
    · have front := List.forall₂_take first.length fills
      rwa [List.take_left] at front
    · have back := List.forall₂_drop first.length fills
      rwa [List.drop_left] at back
  · intro holds
    rcases holds with ⟨front, back, rfl, fillsFirst, fillsSecond⟩
    exact fillsFirst.append fillsSecond

theorem matches_data_iff {content : Bytes} :
    (data content).Matches strict bytes ↔ bytes = content := by
  have places : (data content).Matches strict bytes ↔
      List.Forall₂ (fun value found => found = value) content bytes :=
    List.forall₂_map_left_iff
  rw [places]
  constructor
  · intro equal
    have same : List.Forall₂ Eq bytes content := List.Forall₂.flip equal
    rwa [List.forall₂_eq_eq_eq] at same
  · rintro rfl
    exact List.forall₂_same.mpr fun _ _ => rfl

theorem matches_word_iff {value : UInt32} :
    (word value).Matches strict bytes ↔ bytes = Word.toBytes value :=
  matches_data_iff

theorem matches_data (content : Bytes) : (data content).Matches strict content :=
  matches_data_iff.mpr rfl

theorem matches_word (value : UInt32) : (word value).Matches strict (Word.toBytes value) :=
  matches_data _

theorem matches_word_append_iff {value : UInt32} {rest : Layout} :
    (word value ++ rest).Matches strict bytes ↔
      ∃ back, bytes = Word.toBytes value ++ back ∧ rest.Matches strict back := by
  rw [matches_append_iff]
  constructor
  · intro holds
    rcases holds with ⟨front, back, rfl, fills, fillsRest⟩
    rw [matches_word_iff.mp fills]
    exact ⟨back, rfl, fillsRest⟩
  · intro holds
    rcases holds with ⟨back, rfl, fillsRest⟩
    exact ⟨_, back, rfl, matches_word value, fillsRest⟩

theorem matches_written (strict : Bool) (layout : Layout) :
    layout.Matches strict (written layout) := by
  apply List.forall₂_map_right_iff.mpr
  exact List.forall₂_same.mpr fun cell _ => cell.admits_written strict

/-- A strict reader takes the written bytes and nothing else. -/
theorem matches_iff : layout.Matches strict bytes ↔
    layout.Matches false bytes ∧ (strict = true → bytes = written layout) := by
  induction layout generalizing bytes with
  | nil =>
      simp only [Matches, List.forall₂_nil_left_iff, written, List.map_nil]
      tauto
  | cons cell rest induction =>
      cases bytes with
      | nil => simp [Matches]
      | cons found others =>
          have step : cell.Admits strict found ↔ _ := Cell.admits_iff
          simp only [Matches, List.forall₂_cons, written, List.map_cons,
            List.cons.injEq] at induction step ⊢
          rw [induction, step]
          tauto

theorem matches_padding_iff {length : Nat} :
    (padding length).Matches strict bytes ↔
      bytes.length = padLength length ∧
        (strict = true → bytes = Bytes.zeros (padLength length)) := by
  have free {count : Nat} {bytes : Bytes} :
      Matches false (List.replicate count .padding) bytes ↔ bytes.length = count := by
    induction count generalizing bytes with
    | zero => simp [Matches]
    | succ count induction =>
        cases bytes with
        | nil => simp [Matches]
        | cons found others =>
            simp only [Matches, List.replicate_succ, List.forall₂_cons] at induction ⊢
            simp [induction, Cell.Admits]
  rw [matches_iff, written_padding, padding, free]

/-! ## Single places -/

/-- Bytes that were taken and bytes that are written differ at places of padding
alone. -/
theorem Matches.getElem?_written (fills : layout.Matches strict bytes) (position : Nat) :
    (written layout)[position]? =
      if layout[position]? = some Cell.padding then some 0 else bytes[position]? := by
  induction fills generalizing position with
  | nil => simp [written]
  | @cons cell found rest others admitted _ induction =>
      cases position with
      | zero =>
          cases cell with
          | byte value => simp [written, Cell.written, admitted.symm]
          | padding => simp [written, Cell.written]
      | succ position => simpa [written] using induction position

/-- Without strictness, what stands at places of padding does not matter. -/
theorem Matches.of_agree (fills : layout.Matches false bytes) {other : Bytes}
    (sameLength : other.length = bytes.length)
    (agree : ∀ position : Nat, layout[position]? ≠ some Cell.padding →
      other[position]? = bytes[position]?) :
    layout.Matches false other := by
  induction fills generalizing other with
  | nil =>
      rw [List.length_eq_zero_iff.mp sameLength]
      exact .nil
  | @cons cell found rest others admitted _ induction =>
      cases other with
      | nil => simp at sameLength
      | cons byte others =>
          have later : List.Forall₂ (Cell.Admits false) rest others :=
            induction (by simpa using sameLength) fun position different =>
              agree (position + 1) (by simpa using different)
          refine .cons ?_ later
          cases cell with
          | padding => exact fun strict => absurd strict Bool.false_ne_true
          | byte value =>
              have same : byte = found := by simpa using agree 0 (by simp)
              rw [same]
              exact admitted

end Layout

end RpcWire
