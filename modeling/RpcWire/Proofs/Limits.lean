import Mathlib.Data.List.TakeWhile
import RpcWire.Proofs.Positions

namespace RpcWire

/-! # Limits on the command line

A limit is read into a word of 64 bits, and one that has more than 32 bits is refused.
In such a word a minus sign wraps around, so that small negative numbers become large
ones and are refused as well. The negative numbers at the other end become small ones:
they are taken for limits that nobody asked for. -/

/-! ## Numerals -/

namespace Sign

/-- The ways to write a sign. Plus may be left out. -/
def marks : Sign → List Bytes
  | plus => [[], ascii "+"]
  | minus => [ascii "-"]

def number : Sign → Nat → Int
  | plus, magnitude => magnitude
  | minus, magnitude => -magnitude

end Sign

/-- Blanks, a sign and at least one digit, with nothing behind them. -/
inductive Numeral (sign : Sign) : Nat → Bytes → Prop
  | intro {blanks mark digits : Bytes} (blank : ∀ byte ∈ blanks, isBlank byte = true)
      (marked : mark ∈ sign.marks) (several : digits ≠ [])
      (decimal : ∀ digit ∈ digits, isDecimalDigit digit = true) :
      Numeral sign (digitsValue digits) (blanks ++ (mark ++ digits))

/-- The number that a text stands for, however large it is. -/
def Denotes (text : Bytes) (number : Int) : Prop :=
  ∃ sign magnitude, Numeral sign magnitude text ∧ number = sign.number magnitude

theorem plain_of_isDecimalDigit {byte : UInt8} (digit : isDecimalDigit byte = true) :
    isBlank byte = false ∧ byte ≠ 0x2b ∧ byte ≠ 0x2d := by
  rw [isDecimalDigit, Bool.and_eq_true, decide_eq_true_eq, UInt8.le_iff_toNat_le] at digit
  exact plain_of_le digit.1

namespace Sign

theorem split_marked {sign : Sign} {mark digits : Bytes} (marked : mark ∈ sign.marks)
    (decimal : ∀ digit ∈ digits, isDecimalDigit digit = true) :
    split (mark ++ digits) = (sign, digits) := by
  cases sign with
  | minus =>
      rw [List.mem_singleton.mp marked]
      rfl
  | plus =>
      rcases (by simpa [marks] using marked : mark = [] ∨ mark = ascii "+") with rfl | rfl
      · apply split_of_unsigned
        · intro plus
          exact (plain_of_isDecimalDigit (decimal _ (List.mem_of_head? plus))).2.1 rfl
        · intro minus
          exact (plain_of_isDecimalDigit (decimal _ (List.mem_of_head? minus))).2.2 rfl
      · rfl

theorem exists_mark (text : Bytes) :
    ∃ mark ∈ (split text).1.marks, text = mark ++ (split text).2 := by
  unfold split
  split
  · exact ⟨ascii "+", by simp [marks], rfl⟩
  · exact ⟨ascii "-", by simp [marks], rfl⟩
  · exact ⟨[], by simp [marks], rfl⟩

theorem dropWhile_marked {sign : Sign} {mark digits : Bytes} (marked : mark ∈ sign.marks)
    (several : digits ≠ []) (decimal : ∀ digit ∈ digits, isDecimalDigit digit = true) :
    (mark ++ digits).dropWhile isBlank = mark ++ digits := by
  rcases List.exists_cons_of_ne_nil several with ⟨first, rest, rfl⟩
  have plain := (plain_of_isDecimalDigit (decimal first List.mem_cons_self)).1
  have short : mark = [] ∨ mark = ascii "+" ∨ mark = ascii "-" := by
    cases sign <;> simp only [marks, List.mem_cons, List.not_mem_nil, or_false] at marked
    · exact marked.imp_right .inl
    · exact .inr (.inr marked)
  rcases short with rfl | rfl | rfl
  · simp [plain]
  · rfl
  · rfl

end Sign

namespace Numeral

variable {sign : Sign} {magnitude : Nat} {text : Bytes}

theorem parts (numeral : Numeral sign magnitude text) :
    ∃ digits, Sign.split (text.dropWhile isBlank) = (sign, digits) ∧ digits ≠ [] ∧
      (∀ digit ∈ digits, isDecimalDigit digit = true) ∧ digitsValue digits = magnitude := by
  rcases numeral with ⟨blank, marked, several, decimal⟩
  rw [List.dropWhile_append_of_pos blank, Sign.dropWhile_marked marked several decimal,
    Sign.split_marked marked decimal]
  exact ⟨_, rfl, several, decimal, rfl⟩

theorem of_parts {digits : Bytes} (split : Sign.split (text.dropWhile isBlank) = (sign, digits))
    (several : digits ≠ []) (decimal : ∀ digit ∈ digits, isDecimalDigit digit = true) :
    Numeral sign (digitsValue digits) text := by
  rcases Sign.exists_mark (text.dropWhile isBlank) with ⟨mark, marked, unsigned⟩
  rw [split] at marked unsigned
  have whole : text.takeWhile isBlank ++ (mark ++ digits) = text := by
    rw [← unsigned, List.takeWhile_append_dropWhile]
  have blank : ∀ byte ∈ text.takeWhile isBlank, isBlank byte = true :=
    fun _ member => List.mem_takeWhile_imp member
  exact whole ▸ .intro blank marked several decimal

/-- A text is a numeral in one way only. -/
theorem unique {other : Sign} {size : Nat} (left : Numeral sign magnitude text)
    (right : Numeral other size text) : sign = other ∧ magnitude = size := by
  rcases left.parts with ⟨leftDigits, leftSplit, _, _, rfl⟩
  rcases right.parts with ⟨rightDigits, rightSplit, _, _, rfl⟩
  cases leftSplit.symm.trans rightSplit
  exact ⟨rfl, rfl⟩

end Numeral

theorem Denotes.unique {text : Bytes} {left right : Int} (denotesLeft : Denotes text left)
    (denotesRight : Denotes text right) : left = right := by
  rcases denotesLeft with ⟨sign, magnitude, numeral, rfl⟩
  rcases denotesRight with ⟨_, _, same, rfl⟩
  rcases numeral.unique same with ⟨rfl, rfl⟩
  rfl

/-! ## Words -/

/-- All numerals are read, and nothing else is. -/
theorem readWord?_eq_some_iff {size word : Nat} {text : Bytes} :
    readWord? size text = some word ↔
      ∃ sign magnitude, Numeral sign magnitude text ∧ sign.wrap size magnitude = word := by
  rcases split : Sign.split (text.dropWhile isBlank) with ⟨sign, digits⟩
  simp only [readWord?, split, Option.ite_none_right_eq_some, Bool.and_eq_true,
    Bool.not_eq_true', List.isEmpty_eq_false_iff, List.all_eq_true, Option.some.injEq]
  constructor
  · rintro ⟨⟨several, decimal⟩, rfl⟩
    exact ⟨_, _, .of_parts split several decimal, rfl⟩
  · rintro ⟨_, _, numeral, rfl⟩
    rcases numeral.parts with ⟨_, parts, several, decimal, rfl⟩
    cases split.symm.trans parts
    exact ⟨⟨several, decimal⟩, rfl⟩

/-- A word is its number, or what the number wraps around to. -/
theorem Sign.wrap_eq_iff {sign : Sign} {magnitude value : Nat} (small : value < UInt32.size) :
    sign.wrap UInt64.size magnitude = value ↔ (value : Int) = sign.number magnitude ∨
      value ≠ 0 ∧ (value : Int) - UInt64.size = sign.number magnitude := by
  unfold wrap
  cases sign <;> simp only [number, UInt32.size, UInt64.size] at small ⊢ <;> split <;> omega

theorem readLimit?_eq_some_iff_word {text : Bytes} {value : UInt32} :
    readLimit? text = some value ↔ readWord? UInt64.size text = some value.toNat := by
  unfold readLimit?
  cases readWord? UInt64.size text with
  | none => simp
  | some word =>
      simp only [Option.ite_none_right_eq_some, Option.some.injEq]
      constructor
      · rintro ⟨small, rfl⟩
        exact (UInt32.toNat_ofNat_of_lt' small).symm
      · rintro rfl
        exact ⟨value.toNat_lt_size, UInt32.ofNat_toNat⟩

theorem readLimit?_eq_some_iff {text : Bytes} {value : UInt32} :
    readLimit? text = some value ↔ Denotes text value.toNat ∨
      value ≠ 0 ∧ Denotes text (value.toNat - UInt64.size) := by
  have zero : value ≠ 0 ↔ value.toNat ≠ 0 := not_congr UInt32.toNat_inj.symm
  rw [readLimit?_eq_some_iff_word, readWord?_eq_some_iff, zero]
  simp only [Sign.wrap_eq_iff value.toNat_lt_size]
  constructor
  · rintro ⟨sign, magnitude, numeral, plain | ⟨positive, wrapped⟩⟩
    · exact .inl ⟨sign, magnitude, numeral, plain⟩
    · exact .inr ⟨positive, sign, magnitude, numeral, wrapped⟩
  · rintro (⟨sign, magnitude, numeral, plain⟩ | ⟨positive, sign, magnitude, numeral, wrapped⟩)
    · exact ⟨sign, magnitude, numeral, .inl plain⟩
    · exact ⟨sign, magnitude, numeral, .inr ⟨positive, wrapped⟩⟩

/-- Beyond 32 bits, also where a word of 64 bits wraps around. -/
def Misfit (number : Int) : Prop :=
  UInt32.size ≤ number ∨
    number < 0 ∧ (number ≤ -UInt64.size ∨ UInt32.size - UInt64.size ≤ number)

theorem misfit_iff {number : Int} :
    Misfit number ↔ ∀ value : UInt32,
      number ≠ value.toNat ∧ (value ≠ 0 → number ≠ value.toNat - UInt64.size) := by
  have exists_word {small : Nat} (bound : small < UInt32.size) :
      ∃ value : UInt32, value.toNat = small :=
    ⟨.ofNat small, UInt32.toNat_ofNat_of_lt' bound⟩
  constructor
  · intro misfit value
    have bound := value.toNat_lt_size
    simp only [Misfit, UInt32.size, UInt64.size] at misfit bound ⊢
    refine ⟨by omega, fun positive => ?_⟩
    have counted : value.toNat ≠ 0 := fun zero => positive (UInt32.toNat_inj.mp zero)
    omega
  · intro apart
    by_contra fits
    simp only [Misfit, not_or, not_and] at fits
    rcases Int.lt_or_le number 0 with negative | plain
    · have wrapped := fits.2 negative
      have bound : (number + UInt64.size).toNat < UInt32.size := by omega
      rcases exists_word bound with ⟨value, same⟩
      have positive : value ≠ 0 := by
        rintro rfl
        simp only [UInt32.toNat_zero] at same
        omega
      exact (apart value).2 positive (by omega)
    · have bound : number.toNat < UInt32.size := by omega
      rcases exists_word bound with ⟨value, same⟩
      exact (apart value).1 (by omega)

theorem readLimit?_eq_none_iff {text : Bytes} :
    readLimit? text = none ↔ ∀ number, Denotes text number → Misfit number := by
  simp only [Option.eq_none_iff_forall_ne_some, ne_eq, readLimit?_eq_some_iff, misfit_iff]
  constructor
  · rintro unread number denotes value
    refine ⟨?_, fun positive => ?_⟩
    · rintro rfl
      exact unread value (.inl denotes)
    · rintro rfl
      exact unread value (.inr ⟨positive, denotes⟩)
  · rintro apart value (denotes | ⟨positive, denotes⟩)
    · exact (apart _ denotes value).1 rfl
    · exact (apart _ denotes value).2 positive rfl

namespace Limit

open Dump

/-- A limit is taken for the number that its text denotes, unless that is a negative number
that wraps around to 32 bits; every text that is not taken ends the command. -/
theorem values_taken_as_denoted_iff (text : Bytes) :
    ((∀ value : UInt32, readLimit? text = some value ↔ Denotes text value.toNat) ↔
      ∀ value : UInt32, value ≠ 0 → ¬ Denotes text (value.toNat - UInt64.size)) ∧
    (∀ value : UInt32, readLimit? text = some value ↔ Denotes text value.toNat ∨
      value ≠ 0 ∧ Denotes text (value.toNat - UInt64.size)) ∧
    (readLimit? text = none ↔ ∀ number, Denotes text number → Misfit number) ∧
    ∀ (front : List Item) (which : Limit) (rest : List Bytes), (∀ item ∈ front, item.Valid) →
      (∀ value, readLimit? text = some value →
        Request.ofArguments (front.flatMap Item.spelling ++ which.option :: text :: rest) =
          Request.scan (which.set value (CommandLine.mk front .complete).settings)
            (CommandLine.mk front .complete).files rest) ∧
      (readLimit? text = none → ∀ (program : Bytes) (store : Bytes → Entry),
        run program (front.flatMap Item.spelling ++ which.option :: text :: rest) store =
          { exit := 2, err := line program (Misuse.badNumber text).text ++ usage program }) := by
  refine ⟨⟨?_, ?_⟩, fun value => readLimit?_eq_some_iff, readLimit?_eq_none_iff, ?_⟩
  · intro taken value positive wrapped
    have plain := (taken value).mp (readLimit?_eq_some_iff.mpr (.inr ⟨positive, wrapped⟩))
    have same := plain.unique wrapped
    simp only [UInt64.size] at same
    omega
  · intro plain value
    rw [readLimit?_eq_some_iff, or_iff_left]
    rintro ⟨positive, wrapped⟩
    exact plain value positive wrapped
  · intro front which rest valid
    have option : Argument.of which.option = .limit which := Argument.of_eq_iff.mpr rfl
    refine ⟨fun value reads => ?_, fun unread program store => ?_⟩
    · rw [CommandLine.ofArguments_append valid]
      simp only [Request.scan, option, reads]
    · have asked := CommandLine.ofArguments_append valid (which.option :: text :: rest)
      simp only [Request.scan, option, unread] at asked
      simp only [run, asked, line, List.append_assoc]

theorem values_taken_as_denoted_iff_sample :
    readLimit? (ascii " +7") = some 7 ∧ Denotes (ascii " +7") 7 ∧
      Request.ofArguments [ascii "a", Limit.gids.option, ascii " +7"] =
        .ok (.examine { policy.maxGids := 7 } [ascii "a"]) ∧
      (∀ number, Denotes (ascii "-1") number → Misfit number) ∧
      ∀ store, run (ascii "rpcdump") [ascii "a", Limit.gids.option, ascii "-1"] store =
        { exit := 2, err := ascii "rpcdump: bad number: -1\n" ++ usage (ascii "rpcdump") } := by
  have valid : ∀ item ∈ [Item.file (ascii "a")], item.Valid := by
    have plain : (ascii "a").head? ≠ some 0x2d := by decide
    rw [List.forall_mem_singleton]
    exact plain
  have numeral : Numeral .plus (digitsValue (ascii "7")) (ascii " +7") :=
    .of_parts rfl (by decide) (List.all_eq_true.mp (by decide))
  have denotes : Denotes (ascii " +7") 7 := ⟨_, _, numeral, rfl⟩
  have unread : readLimit? (ascii "-1") = none := by decide +kernel
  rcases values_taken_as_denoted_iff (ascii " +7") with ⟨_, values, _, arguments⟩
  rcases values_taken_as_denoted_iff (ascii "-1") with ⟨_, _, none, refused⟩
  have taken := (values 7).mpr (.inl denotes)
  exact ⟨taken, denotes, (arguments [.file (ascii "a")] .gids [] valid).1 7 taken,
    none.mp unread, (refused [.file (ascii "a")] .gids [] valid).2 unread (ascii "rpcdump")⟩

/-- A negative number that wraps around to one. -/
def wrapped : Bytes := ascii "-18446744073709551615"

/-- One call, on behalf of a user who is in three more groups. -/
def crowdedStore (_ : Bytes) : Entry :=
  .file ([0xcafef00d, 0, 2, 100003, 3, 1, 1, 48, 0x65a1b2c3, 14, 0x636c6965, 0x6e742e65,
    0x78616d70, 0x6c650000, 1000, 1000, 3, 4, 24, 27, 0, 0].flatMap Word.toBytes)

theorem denotes_wrapped : Denotes wrapped (-18446744073709551615) := by
  have numeral : Numeral .minus (digitsValue wrapped.tail) wrapped :=
    .of_parts rfl (by decide) (List.all_eq_true.mp (by decide))
  exact ⟨_, _, numeral, by decide +kernel⟩

/-- The command does not complain about the number, and refuses the call for one
group. -/
theorem not_taken_as_denoted_wrapped :
    Denotes wrapped (-18446744073709551615) ∧ readLimit? wrapped = some 1 ∧
      run (ascii "rpcdump") [Limit.gids.option, wrapped, ascii "sys"] crowdedStore = {
        exit := 1
        err := ascii "sys: decode failed: InvalidLength: AUTH_SYS gid count 3 exceeds limit 1\n" } ∧
      ¬ ∀ (text : Bytes) (value : UInt32),
        readLimit? text = some value ↔ Denotes text value.toNat := by
  have taken : readLimit? wrapped = some 1 := by decide +kernel
  refine ⟨denotes_wrapped, taken, by decide +kernel, fun denoted => ?_⟩
  have same := denotes_wrapped.unique ((denoted wrapped 1).mp taken)
  exact absurd same (by decide)

end Limit

end RpcWire
