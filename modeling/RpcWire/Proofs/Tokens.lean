import Mathlib.Data.List.TakeWhile
import RpcWire.Proofs.Texts
import RpcWire.HexInput

namespace RpcWire

/-! # Hexadecimal input by tokens

Hexadecimal input is read byte by byte, with a note of whether a token begins. What
is read is told here without such a note: split the text into its tokens, drop the
mark of each, and put together what they hold. -/

/-! ## Digits -/

/-- The capital digit of a number below sixteen. -/
def hexCapital (value : Nat) : UInt8 :=
  if value < 10 then UInt8.ofNat (0x30 + value) else UInt8.ofNat (0x37 + value)

theorem hexValue?_hexCapital : ∀ value < 16, hexValue? (hexCapital value) = some value := by
  decide

/-- A byte is the sum of the first digit of its range and its place in the range. -/
theorem eq_ofNat_of_sub_eq {byte : UInt8} {first place : Nat} (behind : first ≤ byte.toNat)
    (same : byte.toNat - first = place) : byte = UInt8.ofNat (first + place) := by
  rw [← same, Nat.add_sub_cancel' behind, UInt8.ofNat_toNat]

/-- The digits are those of both cases and no other bytes. -/
theorem hexValue?_eq_some_iff {byte : UInt8} {value : Nat} :
    hexValue? byte = some value ↔
      value < 16 ∧ (byte = hexDigit value ∨ byte = hexCapital value) := by
  constructor
  · intro found
    simp only [hexValue?, isDecimalDigit, Bool.and_eq_true, decide_eq_true_eq,
      UInt8.le_iff_toNat_le, UInt8.reduceToNat] at found
    split at found
    · next range =>
        have place := Option.some.inj found
        have small : value < 10 := by omega
        refine ⟨by omega, .inl ?_⟩
        rw [hexDigit, if_pos small]
        exact eq_ofNat_of_sub_eq range.1 place
    · split at found
      · next range =>
          have place := Option.some.inj found
          have large : ¬ value < 10 := by omega
          refine ⟨by omega, .inl ?_⟩
          rw [hexDigit, if_neg large]
          exact eq_ofNat_of_sub_eq (by omega) place
      · split at found
        · next range =>
            have place := Option.some.inj found
            have large : ¬ value < 10 := by omega
            refine ⟨by omega, .inr ?_⟩
            rw [hexCapital, if_neg large]
            exact eq_ofNat_of_sub_eq (by omega) place
        · cases found
  · intro digit
    rcases digit with ⟨small, rfl | rfl⟩
    · exact hexValue?_hexDigit value small
    · exact hexValue?_hexCapital value small

theorem plain_of_hexValue? {byte : UInt8} {value : Nat} (digit : hexValue? byte = some value) :
    isBlank byte = false ∧ byte ≠ 0x2b ∧ byte ≠ 0x2d := by
  have behind : ∀ value < 16,
      0x30 ≤ (hexDigit value).toNat ∧ 0x30 ≤ (hexCapital value).toNat := by
    decide
  rcases hexValue?_eq_some_iff.mp digit with ⟨small, rfl | rfl⟩
  · exact plain_of_le (behind value small).1
  · exact plain_of_le (behind value small).2

theorem isHexDigit_of_hexValue? {byte : UInt8} {value : Nat}
    (digit : hexValue? byte = some value) : isHexDigit byte = true := by
  rw [isHexDigit, digit]
  rfl

theorem exists_hexValue? {byte : UInt8} (digit : isHexDigit byte = true) :
    ∃ value, hexValue? byte = some value :=
  Option.isSome_iff_exists.mp digit

/-- Two digits have no room for a mark in front of a digit, so that they are read
as what they say. -/
theorem leadingHex?_pair {high low : UInt8} {highValue lowValue : Nat}
    (highDigit : hexValue? high = some highValue) (lowDigit : hexValue? low = some lowValue) :
    leadingHex? UInt64.size [high, low] = some (16 * highValue + lowValue) := by
  rcases plain_of_hexValue? highDigit with ⟨solid, noPlus, noMinus⟩
  have smallHigh := (hexValue?_eq_some_iff.mp highDigit).1
  have smallLow := (hexValue?_eq_some_iff.mp lowDigit).1
  have trimmed : [high, low].dropWhile isBlank = [high, low] := by
    rw [List.dropWhile_cons_of_neg (by simp [solid])]
  have unsigned : Sign.split [high, low] = (.plus, [high, low]) :=
    Sign.split_of_unsigned (by simpa using noPlus) (by simpa using noMinus)
  have unmarked : skipMark [high, low] = [high, low] := by
    unfold skipMark
    split
    · next same => simp at same
    · rfl
  have taken : [high, low].takeWhile isHexDigit = [high, low] := by
    simp [isHexDigit_of_hexValue? highDigit, isHexDigit_of_hexValue? lowDigit]
  have magnitude : hexDigitsValue [high, low] = 16 * highValue + lowValue := by
    simp [hexDigitsValue, highDigit, lowDigit]
  have fits : ¬ UInt64.size ≤ 16 * highValue + lowValue := by
    unfold UInt64.size
    omega
  simp only [leadingHex?, trimmed, unsigned, unmarked, taken, magnitude, Sign.wrap]
  simp [fits]

namespace HexInput

/-! ## Tokens -/

/-- The longest runs of bytes that are not blank. -/
def tokens (text : Bytes) : List Bytes := (text.splitOnP isBlank).filter (!·.isEmpty)

/-- A token without the mark in front of it. Only one is dropped. -/
def unmarked : Bytes → Bytes
  | 0x30 :: 0x78 :: rest => rest
  | 0x30 :: 0x58 :: rest => rest
  | token => token

/-- What all tokens hold. -/
def bare (text : Bytes) : Bytes := (tokens text).flatMap unmarked

example : tokens (ascii " 0x1\n\n0 0X") = [ascii "0x1", ascii "0", ascii "0X"] := rfl
example : bare (ascii " 0x1\n\n0 0X") = ascii "10" := rfl

/-- The same for a text that begins within a token. -/
def bareWithin (text : Bytes) : Bytes :=
  (text.splitOnP isBlank).headD [] ++ (text.splitOnP isBlank).tail.flatMap unmarked

variable {text rest : Bytes} {byte : UInt8}

theorem bare_eq (text : Bytes) : bare text = (text.splitOnP isBlank).flatMap unmarked := by
  rw [bare, tokens]
  induction text.splitOnP isBlank with
  | nil => rfl
  | cons run later induction =>
      cases run with
      | nil => exact induction
      | cons byte others =>
          rw [List.filter_cons_of_pos rfl, List.flatMap_cons, List.flatMap_cons, induction]

theorem bare_of_blank (blank : isBlank byte = true) : bare (byte :: rest) = bare rest := by
  rw [bare_eq, bare_eq, List.splitOnP_cons_eq_if_modifyHead, if_pos blank]
  rfl

theorem bareWithin_of_blank (blank : isBlank byte = true) :
    bareWithin (byte :: rest) = bare rest := by
  rw [bareWithin, bare_eq, List.splitOnP_cons_eq_if_modifyHead, if_pos blank]
  rfl

theorem bareWithin_of_not_blank (solid : isBlank byte = false) :
    bareWithin (byte :: rest) = byte :: bareWithin rest := by
  rw [bareWithin, bareWithin, List.splitOnP_cons_eq_if_modifyHead, if_neg (by simp [solid])]
  cases split : rest.splitOnP isBlank with
  | nil => exact absurd split (List.splitOnP_ne_nil _ _)
  | cons first later => rfl

theorem bare_of_mark {mark : UInt8} (isMark : mark = 0x78 ∨ mark = 0x58) :
    bare (0x30 :: mark :: rest) = bareWithin rest := by
  have solid : isBlank 0x30 = false ∧ isBlank mark = false := by
    rcases isMark with rfl | rfl <;> decide
  rw [bare_eq, bareWithin, List.splitOnP_cons_eq_if_modifyHead, List.splitOnP_cons_eq_if_modifyHead,
    if_neg (by simp [solid]), if_neg (by simp [solid])]
  cases split : rest.splitOnP isBlank with
  | nil => exact absurd split (List.splitOnP_ne_nil _ _)
  | cons first later => rcases isMark with rfl | rfl <;> rfl

/-- A text begins like its first run, if that is not empty. -/
theorem head?_of_splitOnP {first : Bytes} {later : List Bytes}
    (split : rest.splitOnP isBlank = (byte :: first) :: later) : rest.head? = some byte := by
  cases rest with
  | nil => cases split
  | cons found others =>
      rw [List.splitOnP_cons_eq_if_modifyHead] at split
      split_ifs at split with blank
      · cases split
      · cases runs : others.splitOnP isBlank with
        | nil => exact absurd runs (List.splitOnP_ne_nil _ _)
        | cons run further =>
            rw [runs] at split
            cases split
            rfl

theorem bare_of_not_mark (solid : isBlank byte = false)
    (noMark : byte = 0x30 → rest.head? ≠ some 0x78 ∧ rest.head? ≠ some 0x58) :
    bare (byte :: rest) = byte :: bareWithin rest := by
  rw [bare_eq, bareWithin, List.splitOnP_cons_eq_if_modifyHead, if_neg (by simp [solid])]
  cases split : rest.splitOnP isBlank with
  | nil => exact absurd split (List.splitOnP_ne_nil _ _)
  | cons first later =>
      have whole : unmarked (byte :: first) = byte :: first := by
        unfold unmarked
        split
        · next same =>
            cases same
            exact absurd (head?_of_splitOnP split) (noMark rfl).1
        · next same =>
            cases same
            exact absurd (head?_of_splitOnP split) (noMark rfl).2
        · rfl
      rw [List.modifyHead_cons, List.flatMap_cons, whole]
      rfl

/-! ## Reading digits -/

/-- The bytes, if all of them are digits, and otherwise the first that is none. -/
def checked (bytes : Bytes) : Except Problem Bytes :=
  match bytes.find? (!isHexDigit ·) with
  | some byte => .error (.badCharacter byte)
  | none => .ok bytes

theorem checked_cons_of_digit (digit : isHexDigit byte = true) (bytes : Bytes) :
    checked (byte :: bytes) = (checked bytes).map (byte :: ·) := by
  rw [checked, checked, List.find?_cons_of_neg (by simp [digit])]
  cases bytes.find? (!isHexDigit ·) <;> rfl

theorem checked_cons_of_not_digit (bad : isHexDigit byte = false) (bytes : Bytes) :
    checked (byte :: bytes) = .error (.badCharacter byte) := by
  rw [checked, List.find?_cons_of_pos (by simp [bad])]

/-- What is left to read, at the beginning of a token or within one. -/
def bareFrom (fresh : Bool) (text : Bytes) : Bytes := if fresh then bare text else bareWithin text

theorem bareFrom_of_blank (fresh : Bool) (blank : isBlank byte = true) :
    bareFrom fresh (byte :: rest) = bareFrom true rest := by
  cases fresh with
  | true => exact bare_of_blank blank
  | false => exact bareWithin_of_blank blank

theorem bareFrom_of_not_mark {fresh : Bool} (solid : isBlank byte = false)
    (noMark : ∀ others, fresh = true → byte = 0x30 → rest = 0x78 :: others → False)
    (noCapital : ∀ others, fresh = true → byte = 0x30 → rest = 0x58 :: others → False) :
    bareFrom fresh (byte :: rest) = byte :: bareFrom false rest := by
  cases fresh with
  | false => exact bareWithin_of_not_blank solid
  | true =>
      apply bare_of_not_mark solid
      intro zero
      cases rest with
      | nil => exact ⟨by simp, by simp⟩
      | cons next others =>
          refine ⟨?_, ?_⟩
          · rintro ⟨⟩
            exact noMark others rfl zero rfl
          · rintro ⟨⟩
            exact noCapital others rfl zero rfl

/-- Step by step, what has been read and what is left make up the bare text. -/
theorem digits_eq (fresh : Bool) (text : Bytes) :
    digits fresh text = checked (bareFrom fresh text) := by
  fun_induction digits fresh text with
  | case1 fresh => cases fresh <;> rfl
  | case2 rest induction =>
      rw [induction]
      exact (congrArg checked (bare_of_mark (.inl rfl))).symm
  | case3 rest induction =>
      rw [induction]
      exact (congrArg checked (bare_of_mark (.inr rfl))).symm
  | case4 fresh byte rest blank noMark noCapital induction =>
      rw [induction, bareFrom_of_blank fresh blank]
  | case5 fresh byte rest notBlank digit noMark noCapital induction =>
      have solid : isBlank byte = false := by simpa using notBlank
      rw [induction, bareFrom_of_not_mark solid noMark noCapital, checked_cons_of_digit digit]
  | case6 fresh byte rest notBlank notDigit noMark noCapital =>
      have solid : isBlank byte = false := by simpa using notBlank
      have bad : isHexDigit byte = false := by simpa using notDigit
      rw [bareFrom_of_not_mark solid noMark noCapital, checked_cons_of_not_digit bad]

theorem checked_of_all {bytes : Bytes} (all : ∀ digit ∈ bytes, isHexDigit digit = true) :
    checked bytes = .ok bytes := by
  rw [checked, List.find?_eq_none.mpr (by simpa using all)]

theorem checked_of_bad {front behind : Bytes} (all : ∀ digit ∈ front, isHexDigit digit = true)
    (bad : isHexDigit byte = false) :
    checked (front ++ byte :: behind) = .error (.badCharacter byte) := by
  induction front with
  | nil => exact checked_cons_of_not_digit bad behind
  | cons digit others induction =>
      rcases List.forall_mem_cons.mp all with ⟨first, later⟩
      rw [List.cons_append, checked_cons_of_digit first, induction later]
      rfl

/-! ## Pairing digits -/

/-- What the two digits of a byte are worth. -/
def halves (byte : UInt8) : List Nat := [byte.toNat / 16, byte.toNat % 16]

theorem halves_ofNat {high low : Nat} (smallHigh : high < 16) (smallLow : low < 16) :
    halves (UInt8.ofNat (16 * high + low)) = [high, low] := by
  have inside : 16 * high + low < 256 := by omega
  have number : (UInt8.ofNat (16 * high + low)).toNat = 16 * high + low :=
    UInt8.toNat_ofNat_of_lt' inside
  rw [halves, number]
  congr 2 <;> omega

/-- The number of each pair is read as a number, and its two digits are told by the
byte. -/
theorem pairs_of_all {bytes : Bytes} (all : ∀ digit ∈ bytes, isHexDigit digit = true)
    (even : 2 ∣ bytes.length) :
    ∃ paired, pairs bytes = .ok paired ∧
      bytes.map hexValue? = (paired.flatMap halves).map some := by
  fun_induction pairs bytes with
  | case1 high low rest number found induction =>
      rcases List.forall_mem_cons.mp all with ⟨highDigit, others⟩
      rcases List.forall_mem_cons.mp others with ⟨lowDigit, later⟩
      rcases exists_hexValue? highDigit with ⟨highValue, isHigh⟩
      rcases exists_hexValue? lowDigit with ⟨lowValue, isLow⟩
      have smallHigh := (hexValue?_eq_some_iff.mp isHigh).1
      have smallLow := (hexValue?_eq_some_iff.mp isLow).1
      have number_eq : number = 16 * highValue + lowValue := by
        rw [leadingHex?_pair isHigh isLow] at found
        exact (Option.some.inj found).symm
      have evenLater : 2 ∣ rest.length := by
        simp only [List.length_cons] at even
        omega
      rcases induction later evenLater with ⟨paired, made, same⟩
      refine ⟨UInt8.ofNat number :: paired, by rw [made]; rfl, ?_⟩
      rw [number_eq, List.flatMap_cons, halves_ofNat smallHigh smallLow, List.map_cons,
        List.map_cons, isHigh, isLow, same]
      rfl
  | case2 high low rest unread =>
      rcases List.forall_mem_cons.mp all with ⟨highDigit, others⟩
      rcases exists_hexValue? highDigit with ⟨highValue, isHigh⟩
      rcases exists_hexValue? (others low List.mem_cons_self) with ⟨lowValue, isLow⟩
      rw [leadingHex?_pair isHigh isLow] at unread
      cases unread
  | case3 bytes single =>
      cases bytes with
      | nil => exact ⟨[], rfl, rfl⟩
      | cons high others =>
          cases others with
          | nil => simp at even
          | cons low rest => exact absurd rfl (single high low rest)

/-! ## The whole text -/

theorem read_of_all (all : ∀ digit ∈ bare text, isHexDigit digit = true) :
    read text = if (bare text).length % 2 ≠ 0 then .error .oddCount else pairs (bare text) := by
  have found : digits true text = .ok (bare text) := by
    rw [digits_eq, bareFrom, if_pos rfl, checked_of_all all]
  rw [read, found]
  rfl

theorem read_of_bad {front behind : Bytes} (split : bare text = front ++ byte :: behind)
    (all : ∀ digit ∈ front, isHexDigit digit = true) (bad : isHexDigit byte = false) :
    read text = .error (.badCharacter byte) := by
  have failed : digits true text = .error (.badCharacter byte) := by
    rw [digits_eq, bareFrom, if_pos rfl, split, checked_of_bad all bad]
  rw [read, failed]
  rfl

theorem unmarked_sublist (token : Bytes) : (unmarked token).Sublist token := by
  unfold unmarked
  split
  · exact (List.sublist_cons_self _ _).trans (List.sublist_cons_self _ _)
  · exact (List.sublist_cons_self _ _).trans (List.sublist_cons_self _ _)
  · exact List.Sublist.refl _

theorem flatten_splitOnP (text : Bytes) :
    (text.splitOnP isBlank).flatten = text.filter (!isBlank ·) := by
  induction text with
  | nil => rfl
  | cons byte rest induction =>
      rw [List.splitOnP_cons_eq_if_modifyHead]
      split_ifs with blank
      · rw [List.flatten_cons, induction, List.filter_cons_of_neg (by simp [blank])]
        rfl
      · rw [List.filter_cons_of_pos (by simp [blank]), ← induction]
        cases split : rest.splitOnP isBlank with
        | nil => exact absurd split (List.splitOnP_ne_nil _ _)
        | cons first later => rfl

/-- Nothing is put in and nothing changes its place. -/
theorem bare_sublist (text : Bytes) : (bare text).Sublist text := by
  have runs (pieces : List Bytes) : (pieces.flatMap unmarked).Sublist pieces.flatten := by
    induction pieces with
    | nil => exact .slnil
    | cons piece later induction => exact (unmarked_sublist piece).append induction
  rw [bare_eq]
  exact (runs _).trans (flatten_splitOnP text ▸ List.filter_sublist)

theorem text_badCharacter (notZero : byte ≠ 0) :
    (Problem.badCharacter byte).text = ascii "bad hex character '" ++ [byte] ++ ascii "'" := by
  have before : 0 ∉ ascii "bad hex character '" := by decide
  have behind : 0 ∉ ascii "'" := by decide
  apply List.takeWhile_eq_self_iff.mpr
  intro other member
  rw [List.mem_append, List.mem_append, List.mem_singleton] at member
  rw [bne_iff_ne]
  rcases member with (front | rfl) | back
  · exact ne_of_mem_of_not_mem front before
  · exact notZero
  · exact ne_of_mem_of_not_mem back behind

/-- A text is read by its tokens. If what they hold, put together, are digits of either
case and as many as belong to whole bytes, each two of them make a byte, from whichever
tokens they come. The first byte that is no digit is named, whatever the number of the
digits. The number of two digits is always read as what they say. -/
theorem read_by_tokens (text : Bytes) :
    ((∀ digit ∈ bare text, isHexDigit digit = true) → 2 ∣ (bare text).length →
      ∃ bytes, read text = .ok bytes ∧
        (bare text).map hexValue? = (bytes.flatMap halves).map some) ∧
    (∀ front byte behind, bare text = front ++ byte :: behind →
      (∀ digit ∈ front, isHexDigit digit = true) → isHexDigit byte = false →
      read text = .error (.badCharacter byte)) ∧
    ((∀ digit ∈ bare text, isHexDigit digit = true) → ¬ 2 ∣ (bare text).length →
      read text = .error .oddCount) ∧
    (bare text).Sublist text ∧
    (∀ byte value, hexValue? byte = some value ↔
      value < 16 ∧ (byte = hexDigit value ∨ byte = hexCapital value)) ∧
    (∀ high low highValue lowValue, hexValue? high = some highValue →
      hexValue? low = some lowValue →
      leadingHex? UInt64.size [high, low] = some (16 * highValue + lowValue)) ∧
    ∀ byte, byte ≠ 0 →
      (Problem.badCharacter byte).text = ascii "bad hex character '" ++ [byte] ++ ascii "'" := by
  refine ⟨?_, ?_, ?_, bare_sublist text, ?_, ?_, ?_⟩
  · intro all even
    have whole : ¬ (bare text).length % 2 ≠ 0 := by omega
    rw [read_of_all all, if_neg whole]
    exact pairs_of_all all even
  · intro front byte behind split all bad
    exact read_of_bad split all bad
  · intro all odd
    have some : (bare text).length % 2 ≠ 0 := by omega
    rw [read_of_all all, if_pos some]
  · exact fun byte value => hexValue?_eq_some_iff
  · exact fun high low highValue lowValue isHigh isLow => leadingHex?_pair isHigh isLow
  · exact fun byte notZero => text_badCharacter notZero

/-- A byte that straddles two tokens, with a capital digit and a token that is a mark
only; a bad character behind an odd number of digits; and an odd number of digits. -/
theorem read_by_tokens_sample :
    (∃ bytes, read (ascii "0X0f\n0xb 0x C") = .ok bytes ∧
      (ascii "0fbC").map hexValue? = (bytes.flatMap halves).map some) ∧
    read (ascii "0X0f\n0xb 0x C") = .ok [0x0f, 0xbc] ∧
    read (ascii "1 0x23y") = .error (.badCharacter 0x79) ∧
    read (ascii "0 0x 1 2") = .error .oddCount ∧
    leadingHex? UInt64.size (ascii "bC") = some (16 * 11 + 12) ∧
    (Problem.badCharacter 0x79).text = ascii "bad hex character 'y'" := by
  rcases read_by_tokens (ascii "0X0f\n0xb 0x C") with ⟨whole, _, _, _, _, number, text⟩
  rcases read_by_tokens (ascii "1 0x23y") with ⟨_, bad, _⟩
  rcases read_by_tokens (ascii "0 0x 1 2") with ⟨_, _, odd, _⟩
  have digits {found : Bytes} (all : found.all isHexDigit = true) :
      ∀ digit ∈ found, isHexDigit digit = true := List.all_eq_true.mp all
  exact ⟨whole (digits (by decide)) (by decide), by decide,
    bad (ascii "123") 0x79 [] rfl (digits (by decide)) (by decide),
    odd (digits (by decide)) (by decide), number 0x62 0x43 11 12 rfl rfl, text 0x79 (by decide)⟩

end HexInput

end RpcWire
