import RpcWire.Proofs.Finds

namespace RpcWire

/-! # Schemas

A schema says which operations write a value and which read it. Readers and
writers know nothing of each other, and agree for every schema: what has been
written is read again, whatever stands behind it. -/

/-- Sequences of values are pairs that end with `empty`. Each element of an array
may be such a sequence, and takes at least `minimum` bytes for all the reader
knows beforehand. -/
inductive Schema where
  | word
  | int
  | double
  | long
  | bool
  | counted
  | string
  | fixed (length : Nat)
  | words
  | array (minimum : Nat) (item : Schema)
  | fixedArray (count minimum : Nat) (item : Schema)
  | empty
  | pair (first second : Schema)

namespace Schema

def Carrier : Schema → Type
  | word => UInt32
  | int => Int32
  | double => UInt64
  | long => Int64
  | bool => Bool
  | counted | string | fixed _ => Bytes
  | words => Words
  | array _ item | fixedArray _ _ item => List item.Carrier
  | empty => Unit
  | pair first second => first.Carrier × second.Carrier

def write : (schema : Schema) → schema.Carrier → Writing Unit
  | word => Writing.word
  | int => Writing.int
  | double => Writing.double
  | long => Writing.long
  | bool => Writing.bool
  | counted | string => Writing.counted
  | fixed _ => Writing.fixed
  | words => Writing.words
  | array _ item => Writing.array item.write
  | fixedArray _ _ item => Writing.fixedArray item.write
  | empty => fun _ => pure ()
  | pair first second => fun value => do
      first.write value.1
      second.write value.2

def read (policy : Policy) : (schema : Schema) → Reading schema.Carrier
  | word => Reading.word
  | int => Reading.int
  | double => Reading.double
  | long => Reading.long
  | bool => Reading.bool
  | counted | string => Reading.counted policy
  | fixed length => Reading.fixed policy length
  | words => Reading.words
  | array minimum item => Reading.array minimum fun _ => item.read policy
  | fixedArray count minimum item => Reading.fixedArray count minimum fun _ => item.read policy
  | empty => pure ()
  | pair first second => do
      let front ← first.read policy
      let back ← second.read policy
      return (front, back)

/-- The bytes of a value. -/
def encoding : (schema : Schema) → schema.Carrier → Bytes
  | word => Word.toBytes
  | int => fun value => Word.toBytes value.toUInt32
  | double => Word.doubleToBytes
  | long => fun value => Word.doubleToBytes value.toUInt64
  | bool => fun (value : Bool) => Word.toBytes (if value then 1 else 0)
  | counted | string => fun data =>
      Word.toBytes (UInt32.ofNat data.length) ++ Writing.padded data
  | fixed _ => Writing.padded
  | words => fun values => Word.toBytes (UInt32.ofNat values.count) ++ values.toBytes
  | array _ item => fun items =>
      Word.toBytes (UInt32.ofNat items.length) ++ items.flatMap item.encoding
  | fixedArray _ _ item => fun items => items.flatMap item.encoding
  | empty => fun _ => []
  | pair first second => fun value => first.encoding value.1 ++ second.encoding value.2

/-- Lengths and counts have a word, or are those of the schema, and no element is
smaller than the reader expects. -/
def Fits : (schema : Schema) → schema.Carrier → Prop
  | word | int | double | long | bool | empty => fun _ => True
  | counted | string => fun data => data.length < UInt32.size
  | fixed length => fun data => data.length = length
  | words => fun values => values.count < UInt32.size
  | array minimum item => fun (items : List item.Carrier) => items.length < UInt32.size ∧
      ∀ value ∈ items, item.Fits value ∧ max minimum 1 ≤ (item.encoding value).length
  | fixedArray count minimum item => fun (items : List item.Carrier) => items.length = count ∧
      ∀ value ∈ items, item.Fits value ∧ max minimum 1 ≤ (item.encoding value).length
  | pair first second => fun value => first.Fits value.1 ∧ second.Fits value.2

/-- The same value, with each of its word lists in any form. -/
def Same : (schema : Schema) → schema.Carrier → schema.Carrier → Prop
  | word | int | double | long | bool | counted | string | fixed _ | empty => Eq
  | words => fun left right => left.toList = right.toList
  | array _ item | fixedArray _ _ item => List.Forall₂ item.Same
  | pair first second => fun left right =>
      first.Same left.1 right.1 ∧ second.Same left.2 right.2

end Schema

/-! ## Reading what was written -/

namespace Schema

open Writing Reading

theorem fills_write (schema : Schema) (value : schema.Carrier) (fits : schema.Fits value) :
    (schema.write value).Fills (schema.encoding value) := by
  induction schema with
  | word => exact fills_raw _
  | int => exact fills_raw _
  | double => exact fills_double value
  | long => exact fills_double (Int64.toUInt64 value)
  | bool => exact fills_raw _
  | counted => exact fills_counted fits
  | string => exact fills_counted fits
  | fixed length => exact fills_fixed value
  | words => exact fills_words fits
  | array minimum item induction =>
      exact fills_array fits.1 fun element member => induction element (fits.2 element member).1
  | fixedArray count minimum item induction =>
      exact fills_fixedArray fun element member => induction element (fits.2 element member).1
  | empty => exact writes_pure.whole
  | pair first second inductionFirst inductionSecond =>
      exact (inductionFirst value.1 fits.1).bind (inductionSecond value.2 fits.2)

theorem finds_read (policy : Policy) (schema : Schema) (value : schema.Carrier)
    (fits : schema.Fits value) :
    (schema.read policy).Finds (schema.encoding value) (schema.Same value) := by
  induction schema with
  | word => exact finds_word value
  | int =>
      apply (finds_word (Int32.toUInt32 value)).map
      rintro _ rfl
      exact (Int32.toInt32_toUInt32 value).symm
  | double => exact finds_double value
  | long =>
      apply (finds_double (Int64.toUInt64 value)).map
      rintro _ rfl
      exact (Int64.toInt64_toUInt64 value).symm
  | bool => exact finds_bool value
  | counted => exact finds_counted policy fits
  | string => exact finds_counted policy fits
  | fixed length =>
      exact finds_fixed policy fits
  | words => exact finds_words fits
  | array minimum item induction =>
      exact finds_array (fun element member _ => induction element (fits.2 element member).1)
        (fun element member => (fits.2 element member).2) fits.1
  | fixedArray count minimum item induction =>
      exact finds_fixedArray
        (fun element member _ => induction element (fits.2 element member).1)
        (fun element member => (fits.2 element member).2) fits.1
  | empty => exact finds_pure rfl
  | pair first second inductionFirst inductionSecond =>
      apply (inductionFirst value.1 fits.1).bind
      intro front isSame
      exact (inductionSecond value.2 fits.2).map fun back areSame => ⟨isSame, areSame⟩

/-- A value of any schema is written into every buffer that has room for it, and
is read again by every reader, strict or not, whatever stands behind it. The
reader stops where the writer did. -/
theorem read_written (schema : Schema) (value : schema.Carrier) (fits : schema.Fits value)
    (buffer : Bytes) (room : (schema.encoding value).length ≤ buffer.length) :
    ∃ region, (schema.write value).run (.ofBuffer buffer) = .ok () region ∧
      region.written = schema.encoding value ∧
      ∀ (policy : Policy) (suffix : Bytes), ∃ again cursor,
        (schema.read policy).run (.ofBytes (region.written ++ suffix)) = .ok again cursor ∧
        schema.Same value again ∧ cursor.offset = region.written.length := by
  refine ⟨_, schema.fills_write value fits _ room, rfl, ?_⟩
  intro policy suffix
  have split : (Cursor.ofBytes (schema.encoding value ++ suffix)).rest =
      schema.encoding value ++ suffix :=
    Cursor.rest_ofBytes _
  rcases schema.finds_read policy value fits split with ⟨again, isSame, ran⟩
  exact ⟨again, _, ran, isSame, Nat.zero_add _⟩

/-- An array of elements that are data and words, in front of data of a known
length and a negative number. -/
def sample : Schema := pair (array 8 (pair counted words)) (pair (fixed 3) (pair long empty))

def sampleValue : sample.Carrier :=
  (([([1, 2, 3], .host [7]), ([], .wire [0, 0, 0, 9])] : List (Bytes × Words)),
    ([4, 5, 6] : Bytes), (-2 : Int64), ())

theorem read_written_sample :
    sample.Fits sampleValue ∧ (sample.encoding sampleValue).length = 44 ∧
      ∃ region, (sample.write sampleValue).run (.ofBuffer (Bytes.zeros 50)) = .ok () region ∧
        ∃ again cursor, (sample.read { strictPadding := true }).run
            (.ofBytes (region.written ++ [9])) = .ok again cursor ∧
          sample.Same sampleValue again ∧ cursor.offset = region.written.length := by
  have fits : sample.Fits sampleValue := by
    refine ⟨⟨by decide, ?_⟩, rfl, trivial, trivial⟩
    intro element member
    rcases List.mem_cons.mp member with rfl | member
    · have short : 3 < UInt32.size ∧ 1 < UInt32.size := by decide
      exact ⟨short, by decide⟩
    · have short : 0 < UInt32.size ∧ 1 < UInt32.size := by decide
      rw [List.mem_singleton.mp member]
      exact ⟨short, by decide⟩
  have size : (sample.encoding sampleValue).length = 44 := by decide
  rcases read_written sample sampleValue fits (Bytes.zeros 50) (by decide) with
    ⟨region, ran, _, reads⟩
  exact ⟨fits, size, region, ran, reads { strictPadding := true } [9]⟩

end Schema

end RpcWire
