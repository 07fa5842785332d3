import RpcWire.Proofs.Layout.Message

namespace RpcWire

/-! # What texts are made of

The digits of a number tell the number, and the two hexadecimal digits of a byte
tell the byte. In front of other text the digits of a number end where no digit
follows; those of bytes are as many as there are bytes. The text of a union is
the name of its arm with what the arm holds behind it. -/

/-- What stands in front of the first byte of another kind can be told from what
stands behind. -/
theorem Bytes.append_eq_iff_of_all {inside : UInt8 → Bool} {left right behind after : Bytes}
    (allLeft : ∀ byte ∈ left, inside byte = true) (allRight : ∀ byte ∈ right, inside byte = true)
    (endsLeft : behind.head?.any inside = false) (endsRight : after.head?.any inside = false) :
    left ++ behind = right ++ after ↔ left = right ∧ behind = after := by
  have ends {text : Bytes} (other : text.head?.any inside = false) :
      text.takeWhile inside = [] := by
    cases text with
    | nil => rfl
    | cons byte rest => exact List.takeWhile_cons_of_neg (by simpa using other)
  constructor
  · intro same
    have front := congrArg (List.takeWhile inside) same
    rw [List.takeWhile_append_of_pos allLeft, List.takeWhile_append_of_pos allRight,
      ends endsLeft, ends endsRight, List.append_nil, List.append_nil] at front
    exact ⟨front, List.append_cancel_left (front ▸ same)⟩
  · intro same
    rw [same.1, same.2]

/-! ## Decimal digits -/

/-- A decimal digit of a number, which is a character within ASCII. -/
theorem toNat_digit_of_mem {number : Nat} {digit : Char}
    (member : digit ∈ Nat.toDigits 10 number) :
    (UInt8.ofNat digit.toNat).toNat = digit.toNat ∧ 0x30 ≤ digit.toNat ∧ digit.toNat ≤ 0x39 := by
  have range := Char.isDigit_iff_toNat.mp
    (Nat.isDigit_of_mem_toDigits (by decide) (by decide) member)
  have first : '0'.toNat = 0x30 := rfl
  have last : '9'.toNat = 0x39 := rfl
  rw [first, last] at range
  refine ⟨?_, range⟩
  rw [UInt8.toNat_ofNat']
  omega

theorem isDecimalDigit_of_mem_decimal {number : Nat} {byte : UInt8}
    (member : byte ∈ decimal number) : isDecimalDigit byte = true := by
  rcases List.mem_map.mp member with ⟨digit, among, rfl⟩
  rcases toNat_digit_of_mem among with ⟨kept, first, last⟩
  simp only [isDecimalDigit, Bool.and_eq_true, decide_eq_true_eq, UInt8.le_iff_toNat_le, kept]
  exact ⟨first, last⟩

theorem digitsValue_decimal (number : Nat) : digitsValue (decimal number) = number := by
  rw [digitsValue, decimal, List.foldl_map]
  calc (Nat.toDigits 10 number).foldl
          (fun value digit => 10 * value + ((UInt8.ofNat digit.toNat).toNat - 0x30)) 0
      = (Nat.toDigits 10 number).foldl
          (fun value digit => 10 * value + (digit.toNat - '0'.toNat)) 0 := by
        apply List.foldl_rel (r := Eq) rfl
        intro digit member value _ same
        rw [(toNat_digit_of_mem member).1, same]
        rfl
    _ = number := by
        rw [← Nat.ofDigitChars_eq_foldl, Nat.ofDigitChars_ten_toDigits]

theorem decimal_injective {left right : Nat} (same : decimal left = decimal right) :
    left = right := by
  rw [← digitsValue_decimal left, same, digitsValue_decimal]

theorem decimal_ne_nil (number : Nat) : decimal number ≠ [] := by
  rw [decimal, ne_eq, List.map_eq_nil_iff]
  exact Nat.toDigits_ne_nil

theorem head?_decimal (number : Nat) : (decimal number).head?.any isDecimalDigit = true := by
  cases digits : decimal number with
  | nil => exact absurd digits (decimal_ne_nil number)
  | cons digit others => exact isDecimalDigit_of_mem_decimal (digits ▸ List.mem_cons_self)

theorem decimal_append_eq_iff {left right : Nat} {behind after : Bytes}
    (endsLeft : behind.head?.any isDecimalDigit = false)
    (endsRight : after.head?.any isDecimalDigit = false) :
    decimal left ++ behind = decimal right ++ after ↔ left = right ∧ behind = after := by
  rw [Bytes.append_eq_iff_of_all (fun _ => isDecimalDigit_of_mem_decimal)
    (fun _ => isDecimalDigit_of_mem_decimal) endsLeft endsRight]
  exact and_congr_left' ⟨decimal_injective, congrArg decimal⟩

/-! ## Hexadecimal digits -/

theorem hexValue?_hexDigit : ∀ value < 16, hexValue? (hexDigit value) = some value := by
  decide

namespace Bytes

@[simp] theorem length_hex (bytes : Bytes) : (hex bytes).length = 2 * bytes.length := by
  induction bytes with
  | nil => rfl
  | cons byte rest induction =>
      rw [hex, List.flatMap_cons, List.length_append, ← hex, induction, List.length_cons]
      simp only [List.length_cons, List.length_nil]
      omega

theorem hexDigit_of_mem_hex {bytes : Bytes} {digit : UInt8} (member : digit ∈ hex bytes) :
    ∃ value < 16, digit = hexDigit value := by
  rcases List.mem_flatMap.mp member with ⟨byte, _, digits⟩
  have small := byte.toNat_lt
  simp only [List.mem_cons, List.not_mem_nil, or_false] at digits
  rcases digits with rfl | rfl
  · exact ⟨_, by omega, rfl⟩
  · exact ⟨_, by omega, rfl⟩

theorem hexDigit_injective {left right : Nat} (smallLeft : left < 16) (smallRight : right < 16)
    (same : hexDigit left = hexDigit right) : left = right := by
  have values := hexValue?_hexDigit left smallLeft
  rw [same, hexValue?_hexDigit right smallRight] at values
  exact (Option.some.inj values).symm

theorem hex_injective {left right : Bytes} (same : hex left = hex right) : left = right := by
  induction left generalizing right with
  | nil =>
      have digits := congrArg List.length same
      rw [length_hex, length_hex, List.length_nil] at digits
      have empty : right.length = 0 := by omega
      exact (List.length_eq_zero_iff.mp empty).symm
  | cons byte rest induction =>
      cases right with
      | nil => cases same
      | cons other others =>
          have small := byte.toNat_lt
          have smallOther := other.toNat_lt
          have digits : hexDigit (byte.toNat / 16) = hexDigit (other.toNat / 16) ∧
              hexDigit (byte.toNat % 16) = hexDigit (other.toNat % 16) ∧
              hex rest = hex others := by
            simpa [hex] using same
          have high := hexDigit_injective (by omega) (by omega) digits.1
          have low := hexDigit_injective (by omega) (by omega) digits.2.1
          have equal : byte = other := UInt8.toNat_inj.mp (by omega)
          rw [equal, induction digits.2.2]

/-- As many bytes have as many digits, so that nothing has to follow them. -/
theorem hex_append_eq_iff {left right behind after : Bytes} (size : left.length = right.length) :
    hex left ++ behind = hex right ++ after ↔ left = right ∧ behind = after := by
  have digits : (hex left).length = (hex right).length := by
    rw [length_hex, length_hex, size]
  constructor
  · intro same
    rcases List.append_inj same digits with ⟨equal, same⟩
    exact ⟨hex_injective equal, same⟩
  · intro same
    rw [same.1, same.2]

end Bytes

/-! ## Names and what stands behind them -/

namespace Credential

/-- An empty body is not shown at all. -/
def bodyText (body : Bytes) : Bytes :=
  if body.isEmpty then [] else ascii " " ++ body.text

theorem bodyText_nil : bodyText [] = [] := rfl

theorem bodyText_cons (byte : UInt8) (rest : Bytes) :
    bodyText (byte :: rest) = ascii " " ++ Bytes.text (byte :: rest) := rfl

/-- What stands behind the name of the flavor. -/
def arm : Credential → Bytes
  | sys identity => identity.text
  | none body | short body | other _ body _ => bodyText body

theorem text_eq (credential : Credential) :
    credential.text = flavorName credential.flavor ++ credential.arm := by
  cases credential <;> rfl

end Credential

namespace Outcome

/-- What stands behind the name of the outcome. -/
def arm : Outcome → Bytes
  | success results => ascii " " ++ Bytes.text results
  | programMismatch versions => versions.text
  | programUnavailable | procedureUnavailable | garbageArguments | systemError => []

theorem text_eq (outcome : Outcome) :
    outcome.text = ascii (Tag.name outcome.kind) ++ outcome.arm := by
  cases outcome <;> rfl

end Outcome

namespace Rejection

/-- What stands behind the name of the rejection. -/
def arm : Rejection → Bytes
  | rpcMismatch versions => versions.text
  | authError status => ascii " " ++ ascii (Tag.name status)

theorem text_eq (rejection : Rejection) :
    rejection.text = ascii (Tag.name rejection.kind) ++ rejection.arm := by
  cases rejection <;> rfl

end Rejection

namespace Reply

/-- What stands behind the name of the reply and its comma. -/
def arm : Reply → Bytes
  | accepted verifier outcome => ascii "verf=" ++ verifier.text ++ ascii ", " ++ outcome.text
  | denied rejection => rejection.text

theorem text_eq (reply : Reply) :
    reply.text = ascii "REPLY\x7b" ++ (ascii (Tag.name reply.kind) ++
      (ascii ", " ++ (reply.arm ++ ascii "\x7d"))) := by
  cases reply <;> simp only [text, arm, List.append_assoc]

end Reply

/-! ## Machine names -/

/-- The machine name of a structured credential. -/
def Credential.machines : Credential → List Bytes
  | sys identity => [identity.machine]
  | _ => []

/-- The machine names in a message, in the order of its text. -/
def Message.machines (message : Message) : List Bytes :=
  message.credentials.flatMap Credential.machines

end RpcWire
