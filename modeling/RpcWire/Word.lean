import RpcWire.Bytes

namespace RpcWire

/-! # Words on the wire

A word is four bytes, most significant first. Both directions are stated in
natural-number arithmetic. -/

namespace Word

def toBytes (word : UInt32) : Bytes :=
  [UInt8.ofNat (word.toNat / 0x1000000), UInt8.ofNat (word.toNat / 0x10000),
    UInt8.ofNat (word.toNat / 0x100), UInt8.ofNat word.toNat]

example : toBytes 0x01020304 = [1, 2, 3, 4] := rfl

/-- The number that the bytes spell in base 256, cut to a word. -/
def ofBytes (bytes : Bytes) : UInt32 :=
  UInt32.ofNat (bytes.foldl (fun value byte => 256 * value + byte.toNat) 0)

example : ofBytes [1, 2, 3, 4] = 0x01020304 := rfl

@[simp] theorem length_toBytes (word : UInt32) : (toBytes word).length = 4 := rfl

@[simp] theorem ofBytes_toBytes (word : UInt32) : ofBytes (toBytes word) = word := by
  apply UInt32.toNat_inj.mp
  have small := word.toNat_lt
  simp only [ofBytes, toBytes, List.foldl_cons, List.foldl_nil, UInt8.toNat_ofNat',
    UInt32.toNat_ofNat']
  omega

theorem toBytes_ofBytes {bytes : Bytes} (four : bytes.length = 4) :
    toBytes (ofBytes bytes) = bytes := by
  match bytes, four with
  | [a, b, c, d], _ =>
      have := a.toNat_lt
      have := b.toNat_lt
      have := c.toNat_lt
      have := d.toNat_lt
      simp only [ofBytes, toBytes, List.foldl_cons, List.foldl_nil, UInt32.toNat_ofNat',
        List.cons.injEq, and_true, ← UInt8.toNat_inj, UInt8.toNat_ofNat']
      omega

/-! A double word is two words, the high one first. -/

def doubleToBytes (double : UInt64) : Bytes :=
  toBytes (UInt32.ofNat (double.toNat / UInt32.size)) ++ toBytes (UInt32.ofNat double.toNat)

def double (high low : UInt32) : UInt64 :=
  UInt64.ofNat (high.toNat * UInt32.size + low.toNat)

example : doubleToBytes 0x0102030405060708 = [1, 2, 3, 4, 5, 6, 7, 8] := rfl
example : double 0x01020304 0x05060708 = 0x0102030405060708 := rfl

@[simp] theorem length_doubleToBytes (value : UInt64) :
    (doubleToBytes value).length = 8 := rfl

theorem double_halves (value : UInt64) :
    double (UInt32.ofNat (value.toNat / UInt32.size)) (UInt32.ofNat value.toNat) = value := by
  apply UInt64.toNat_inj.mp
  have small := value.toNat_lt
  simp only [double, UInt64.toNat_ofNat', UInt32.toNat_ofNat']
  unfold UInt32.size
  omega

end Word

/-! ## Word lists

A list of words is kept as it came: host words from a caller, or the bytes of a
received message. What the list says does not depend on which. -/

inductive Words where
  | host (words : List UInt32)
  | wire (bytes : Bytes)

namespace Words

/-- The words that consecutive groups of four bytes spell; up to three bytes at
the end that make no word say nothing. -/
def spelled : Bytes → List UInt32
  | a :: b :: c :: d :: rest => Word.ofBytes [a, b, c, d] :: spelled rest
  | _ => []

def toList : Words → List UInt32
  | host words => words
  | wire bytes => spelled bytes

example : (wire [0, 0, 0, 7, 0, 0, 1, 0]).toList = [7, 256] := rfl

def count (words : Words) : Nat := words.toList.length

def toBytes (words : Words) : Bytes := words.toList.flatMap Word.toBytes

def empty : Words := host []

instance : Inhabited Words := ⟨empty⟩

/-- Two lists are equal when they say the same words. -/
instance : BEq Words := ⟨fun left right => left.toList == right.toList⟩

example : (host [7, 256] == wire [0, 0, 0, 7, 0, 0, 1, 0]) = true := rfl

theorem beq_iff {left right : Words} :
    (left == right) = true ↔ left.toList = right.toList :=
  beq_iff_eq (a := left.toList) (b := right.toList)

theorem length_spelled (bytes : Bytes) : (spelled bytes).length = bytes.length / 4 := by
  fun_induction spelled bytes with
  | case1 a b c d rest induction => simp [induction]; omega
  | case2 bytes short =>
      match bytes, short with
      | [], _ => simp
      | [_], _ => simp
      | [_, _], _ => simp
      | [_, _, _], _ => simp
      | a :: b :: c :: d :: rest, short => exact (short a b c d rest rfl).elim

@[simp] theorem length_toBytes (words : Words) : words.toBytes.length = 4 * words.count := by
  have each (list : List UInt32) :
      (list.flatMap Word.toBytes).length = 4 * list.length := by
    induction list with
    | nil => rfl
    | cons word rest induction => simp [induction]; omega
  exact each words.toList

end Words

end RpcWire
