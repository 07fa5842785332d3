import Mathlib.Tactic.MkIffOfInductiveProp
import RpcWire.Proofs.Fields
import RpcWire.Proofs.Lines

namespace RpcWire

/-! # Legibility

A text tells the message, but for the bytes that it cuts off. Each part of it can
be told from what stands behind: a number ends where no digit follows, bytes are
as many as the text says, a list ends at its bracket, and a machine name ends at
its quote. That last one holds of names without a quote only. -/

def quote : UInt8 := 0x22

def Credential.Unquoted (credential : Credential) : Prop :=
  ∀ machine ∈ credential.machines, quote ∉ machine

/-- No machine name in the message has a quote. -/
def Message.Unquoted (message : Message) : Prop :=
  ∀ credential ∈ message.credentials, credential.Unquoted

instance (credential : Credential) : Decidable credential.Unquoted :=
  inferInstanceAs (Decidable (∀ machine ∈ credential.machines, quote ∉ machine))

instance (message : Message) : Decidable message.Unquoted :=
  inferInstanceAs (Decidable (∀ credential ∈ message.credentials, credential.Unquoted))

/-! ## Values that are shown alike -/

/-- Byte strings are shown in full up to a length. Of longer ones the length and
the first bytes are shown. -/
def Bytes.ShownAlike (left right : Bytes) : Prop :=
  left = right ∨ shownBytes < left.length ∧ left.length = right.length ∧
    left.take shownBytes = right.take shownBytes

instance (left right : Bytes) : Decidable (left.ShownAlike right) :=
  inferInstanceAs (Decidable (_ ∨ _))

@[mk_iff] structure UnixIdentity.ShownAlike (left right : UnixIdentity) : Prop where
  stamp : left.stamp = right.stamp
  machine : left.machine = right.machine
  uid : left.uid = right.uid
  gid : left.gid = right.gid
  gids : left.gids.toList = right.gids.toList

def Credential.ShownAlike : Credential → Credential → Prop
  | none left, none right => left.ShownAlike right
  | sys left, sys right => left.ShownAlike right
  | short left, short right => left.ShownAlike right
  | other leftFlavor left _, other rightFlavor right _ =>
      leftFlavor = rightFlavor ∧ left.ShownAlike right
  | _, _ => False

theorem Credential.ShownAlike.refl (credential : Credential) :
    credential.ShownAlike credential := by
  cases credential with
  | none body => exact Or.inl rfl
  | sys identity => exact ⟨rfl, rfl, rfl, rfl, rfl⟩
  | short body => exact Or.inl rfl
  | other flavor body _ => exact ⟨rfl, Or.inl rfl⟩

@[mk_iff] structure Call.ShownAlike (left right : Call) : Prop where
  program : left.program = right.program
  version : left.version = right.version
  procedure : left.procedure = right.procedure
  credential : left.credential.ShownAlike right.credential
  verifier : left.verifier.ShownAlike right.verifier
  arguments : left.arguments.ShownAlike right.arguments

def Outcome.ShownAlike : Outcome → Outcome → Prop
  | success left, success right => left.ShownAlike right
  | left, right => left = right

def Reply.ShownAlike : Reply → Reply → Prop
  | accepted leftVerifier left, accepted rightVerifier right =>
      leftVerifier.ShownAlike rightVerifier ∧ left.ShownAlike right
  | denied left, denied right => left = right
  | _, _ => False

def Message.Body.ShownAlike : Body → Body → Prop
  | call left, call right => left.ShownAlike right
  | reply left, reply right => left.ShownAlike right
  | _, _ => False

@[mk_iff] structure Message.ShownAlike (left right : Message) : Prop where
  xid : left.xid = right.xid
  body : left.body.ShownAlike right.body

/-! ## Alike and equal

Where all bytes are shown, to be shown alike is just to be equal. -/

theorem Bytes.shownAlike_iff_beq {left right : Bytes} (short : left.length ≤ shownBytes) :
    left.ShownAlike right ↔ (left == right) = true := by
  rw [beq_iff_eq]
  exact or_iff_left fun long => absurd long.1 (Nat.not_lt_of_le short)

theorem UnixIdentity.shownAlike_iff_beq {left right : UnixIdentity} :
    left.ShownAlike right ↔ (left == right) = true := by
  change _ ↔ (_ && _ && _ && _ && _) = true
  simp only [shownAlike_iff, Bool.and_eq_true, beq_iff_eq, Words.beq_iff, and_assoc]

theorem Credential.shownAlike_iff_beq {left right : Credential}
    (short : left.body.length ≤ shownBytes) : left.ShownAlike right ↔ (left == right) = true := by
  cases left <;> cases right
  case none.none left right => exact Bytes.shownAlike_iff_beq short
  case sys.sys left right => exact UnixIdentity.shownAlike_iff_beq
  case short.short left right => exact Bytes.shownAlike_iff_beq short
  case other.other leftFlavor left _ rightFlavor right _ =>
      change _ ∧ left.ShownAlike right ↔ (leftFlavor == rightFlavor && left == right) = true
      rw [Bool.and_eq_true, beq_iff_eq]
      exact and_congr_right' (Bytes.shownAlike_iff_beq short)
  all_goals exact iff_of_false id Bool.false_ne_true

theorem Call.shownAlike_iff_beq {left right : Call}
    (shortBodies : ∀ credential ∈ left.credentials, credential.body.length ≤ shownBytes)
    (shortArguments : left.arguments.length ≤ shownBytes) :
    left.ShownAlike right ↔ (left == right) = true := by
  have asks : left.credential.body.length ≤ shownBytes := shortBodies _ (by simp [credentials])
  have verifies : left.verifier.body.length ≤ shownBytes := shortBodies _ (by simp [credentials])
  change _ ↔ (_ && _ && _ && _ && _ && _) = true
  rw [shownAlike_iff, Credential.shownAlike_iff_beq asks, Credential.shownAlike_iff_beq verifies,
    Bytes.shownAlike_iff_beq shortArguments]
  simp only [Bool.and_eq_true, beq_iff_eq, and_assoc]

theorem Outcome.shownAlike_iff_beq {left right : Outcome}
    (short : ∀ results ∈ left.tail?, results.length ≤ shownBytes) :
    left.ShownAlike right ↔ (left == right) = true := by
  rw [beq_iff_eq]
  cases left <;> cases right
  case success.success left right =>
      rw [success.injEq, ← beq_iff_eq]
      exact Bytes.shownAlike_iff_beq (short left rfl)
  all_goals exact Iff.rfl

theorem Reply.shownAlike_iff_beq {left right : Reply}
    (shortBodies : ∀ credential ∈ left.credentials, credential.body.length ≤ shownBytes)
    (shortResults : ∀ results ∈ left.tail?, results.length ≤ shownBytes) :
    left.ShownAlike right ↔ (left == right) = true := by
  cases left <;> cases right
  case accepted.accepted leftVerifier left rightVerifier right =>
      change _ ∧ _ ↔ (_ && _) = true
      rw [Bool.and_eq_true, Credential.shownAlike_iff_beq (shortBodies _ List.mem_cons_self),
        Outcome.shownAlike_iff_beq shortResults]
  case denied.denied left right => exact beq_iff_eq.symm
  all_goals exact iff_of_false id Bool.false_ne_true

namespace Message

theorem Body.shownAlike_iff_beq {left right : Body}
    (shortBodies : ∀ credential ∈ left.credentials, credential.body.length ≤ shownBytes)
    (shortTail : ∀ bytes ∈ left.tail?, bytes.length ≤ shownBytes) :
    left.ShownAlike right ↔ (left == right) = true := by
  cases left <;> cases right
  case call.call left right => exact Call.shownAlike_iff_beq shortBodies (shortTail _ rfl)
  case reply.reply left right => exact Reply.shownAlike_iff_beq shortBodies shortTail
  all_goals exact iff_of_false id Bool.false_ne_true

/-- Every byte of the message is shown. -/
structure ShownInFull (message : Message) : Prop where
  bodies : ∀ credential ∈ message.credentials, credential.body.length ≤ shownBytes
  tail : ∀ bytes ∈ message.tail?, bytes.length ≤ shownBytes

theorem shownAlike_iff_beq {left right : Message} (full : left.ShownInFull) :
    left.ShownAlike right ↔ (left == right) = true := by
  change _ ↔ (left.xid == right.xid && left.body == right.body) = true
  rw [shownAlike_iff, Bool.and_eq_true, Body.shownAlike_iff_beq full.bodies full.tail]
  exact and_congr_left' beq_iff_eq.symm

end Message

/-! ## Fixed words -/

/-- Texts with different first bytes are different, whatever stands behind. -/
theorem Bytes.append_ne_of_head? {inside : UInt8 → Bool} {left right : Bytes}
    (leftInside : left.head?.any inside = true) (rightOutside : right.head?.all inside = false)
    (behind after : Bytes) : left ++ behind ≠ right ++ after := by
  intro same
  cases left with
  | nil => cases leftInside
  | cons first others =>
      cases right with
      | nil => cases rightOutside
      | cons second rest =>
          have equal : first = second := (List.cons.inj same).1
          have firstInside : inside first = true := leftInside
          have secondOutside : inside second = false := rightOutside
          rw [equal, secondOutside] at firstInside
          cases firstInside

/-- Of names of which none begins another, one is told from what stands behind. -/
theorem Bytes.append_eq_iff_of_prefixFree {Name : Type} {all : List Name} {spell : Name → Bytes}
    (free : ∀ left ∈ all, ∀ right ∈ all, spell left <+: spell right → left = right)
    {left right : Name} {behind after : Bytes} (leftMember : left ∈ all)
    (rightMember : right ∈ all) :
    spell left ++ behind = spell right ++ after ↔ left = right ∧ behind = after := by
  constructor
  · intro same
    have begins : spell left <+: spell right ++ after := ⟨behind, same⟩
    have equal : left = right := by
      rcases List.prefix_or_prefix_of_prefix begins (List.prefix_append _ _) with first | second
      · exact free left leftMember right rightMember first
      · exact (free right rightMember left leftMember second).symm
    rcases equal with rfl
    exact ⟨rfl, List.append_cancel_left same⟩
  · intro same
    rw [same.1, same.2]

theorem Tag.name_append_eq_iff {Kind : Type} [Tag Kind]
    (free : ∀ left ∈ (all : List Kind), ∀ right ∈ (all : List Kind),
      ascii (name left) <+: ascii (name right) → left = right)
    {left right : Kind} {behind after : Bytes} :
    ascii (name left) ++ behind = ascii (name right) ++ after ↔
      left = right ∧ behind = after :=
  Bytes.append_eq_iff_of_prefixFree free (complete left) (complete right)

/-- A number in front of a fixed text that does not begin with a digit. -/
theorem number_append_eq_iff {next : String} {left right : Nat} {behind after : Bytes}
    (ends : (ascii next).head?.all isDecimalDigit = false) :
    decimal left ++ (ascii next ++ behind) = decimal right ++ (ascii next ++ after) ↔
      left = right ∧ behind = after := by
  have follows (rest : Bytes) : (ascii next ++ rest).head?.any isDecimalDigit = false := by
    cases spelled : ascii next with
    | nil =>
        rw [spelled] at ends
        cases ends
    | cons byte others =>
        rw [spelled] at ends
        exact ends
  rw [decimal_append_eq_iff (follows _) (follows _), List.append_cancel_left_eq]

/-! ## Bytes -/

namespace Bytes

variable {left right behind after : Bytes}

theorem shownAlike_iff : left.ShownAlike right ↔
    left.length = right.length ∧ left.take shownBytes = right.take shownBytes := by
  constructor
  · intro alike
    rcases alike with rfl | ⟨_, size, front⟩
    · exact ⟨rfl, rfl⟩
    · exact ⟨size, front⟩
  · intro shown
    rcases shown with ⟨size, front⟩
    by_cases long : shownBytes < left.length
    · exact .inr ⟨long, size, front⟩
    · rw [List.take_of_length_le (by omega), List.take_of_length_le (by omega)] at front
      exact .inl front

/-- What stands in front of the digits depends on the length alone, and so does
what stands behind. -/
theorem text_eq (bytes : Bytes) :
    bytes.text = ascii "[" ++ (decimal bytes.length ++ (ascii "]" ++
      ((if bytes.length = 0 then [] else ascii " ") ++ (hex (bytes.take shownBytes) ++
        if shownBytes < bytes.length then ascii "..." else [])))) := by
  cases bytes with
  | nil => rfl
  | cons byte rest => simp [text]

theorem text_append_eq_iff :
    left.text ++ behind = right.text ++ after ↔ left.ShownAlike right ∧ behind = after := by
  simp only [text_eq, List.append_assoc, List.append_cancel_left_eq, shownAlike_iff]
  rw [number_append_eq_iff (by decide), and_assoc]
  apply and_congr_right
  intro size
  have digits : (left.take shownBytes).length = (right.take shownBytes).length := by
    rw [List.length_take, List.length_take, size]
  rw [size, List.append_cancel_left_eq, hex_append_eq_iff digits, List.append_cancel_left_eq]

end Bytes

/-! ## Word lists -/

namespace Words

/-- What is between the brackets. -/
def numbers (words : List UInt32) : Bytes :=
  joined (ascii ", ") (words.map fun word => decimal word.toNat)

/-- What is between the first number and the closing bracket. -/
def furtherNumbers (words : List UInt32) : Bytes :=
  words.flatMap fun word => ascii ", " ++ decimal word.toNat

theorem numbers_cons (word : UInt32) (rest : List UInt32) :
    numbers (word :: rest) = decimal word.toNat ++ furtherNumbers rest := by
  induction rest generalizing word with
  | nil => exact (List.append_nil _).symm
  | cons next rest induction =>
      have tail := induction next
      rw [numbers, List.map_cons] at tail
      rw [numbers, List.map_cons, List.map_cons, joined, tail, furtherNumbers, furtherNumbers,
        List.flatMap_cons, List.append_assoc, List.append_assoc]
      intro empty
      cases empty

theorem furtherNumbers_ends (words : List UInt32) (behind : Bytes) :
    (furtherNumbers words ++ (ascii "]" ++ behind)).head?.any isDecimalDigit = false := by
  cases words with
  | nil => rfl
  | cons word rest => rfl

variable {behind after : Bytes}

theorem furtherNumbers_append_eq_iff {left right : List UInt32} :
    furtherNumbers left ++ (ascii "]" ++ behind) = furtherNumbers right ++ (ascii "]" ++ after) ↔
      left = right ∧ behind = after := by
  induction left generalizing right with
  | nil =>
      cases right with
      | nil => simp [furtherNumbers]
      | cons word rest => simp [furtherNumbers, ascii]
  | cons word rest induction =>
      cases right with
      | nil => simp [furtherNumbers, ascii]
      | cons other others =>
          rw [furtherNumbers, furtherNumbers, List.flatMap_cons, List.flatMap_cons,
            ← furtherNumbers, ← furtherNumbers]
          simp only [List.append_assoc, List.append_cancel_left_eq]
          rw [decimal_append_eq_iff (furtherNumbers_ends _ _) (furtherNumbers_ends _ _), induction,
            UInt32.toNat_inj, List.cons.injEq, and_assoc]

/-- Where a first number begins, there is no bracket. -/
theorem numbers_cons_append_ne (word : UInt32) (rest : List UInt32) :
    numbers (word :: rest) ++ behind ≠ ascii "]" ++ after := by
  rw [numbers_cons, List.append_assoc]
  exact Bytes.append_ne_of_head? (head?_decimal word.toNat) (by decide) _ _

theorem numbers_append_eq_iff {left right : List UInt32} :
    numbers left ++ (ascii "]" ++ behind) = numbers right ++ (ascii "]" ++ after) ↔
      left = right ∧ behind = after := by
  cases left with
  | nil =>
      cases right with
      | nil => simp [numbers, joined]
      | cons word rest =>
          exact iff_of_false (fun same => numbers_cons_append_ne word rest same.symm) (by simp)
  | cons word rest =>
      cases right with
      | nil => exact iff_of_false (numbers_cons_append_ne word rest) (by simp)
      | cons other others =>
          rw [numbers_cons, numbers_cons, List.append_assoc, List.append_assoc,
            decimal_append_eq_iff (furtherNumbers_ends _ _) (furtherNumbers_ends _ _),
            furtherNumbers_append_eq_iff, UInt32.toNat_inj, List.cons.injEq, and_assoc]

theorem text_append_eq_iff {left right : Words} :
    left.text ++ behind = right.text ++ after ↔ left.toList = right.toList ∧ behind = after := by
  have split (words : Words) (rest : Bytes) :
      words.text ++ rest = ascii "[" ++ (numbers words.toList ++ (ascii "]" ++ rest)) := by
    simp only [text, numbers, List.append_assoc]
  rw [split, split, List.append_cancel_left_eq, numbers_append_eq_iff]

end Words

theorem VersionRange.text_append_eq_iff {left right : VersionRange} {behind after : Bytes} :
    left.text ++ behind = right.text ++ after ↔ left = right ∧ behind = after := by
  simp (disch := decide) only [text, List.append_assoc, List.append_cancel_left_eq,
    number_append_eq_iff, UInt32.toNat_inj]
  cases left
  cases right
  rw [VersionRange.mk.injEq, and_assoc]

/-! ## Credentials -/

namespace UnixIdentity

variable {left right : UnixIdentity} {behind after : Bytes}

/-- A name without a quote ends at the quote behind it. -/
theorem text_append_eq_iff (unquotedLeft : quote ∉ left.machine)
    (unquotedRight : quote ∉ right.machine) :
    left.text ++ behind = right.text ++ after ↔ left.ShownAlike right ∧ behind = after := by
  have inside {machine : Bytes} (unquoted : quote ∉ machine) :
      ∀ byte ∈ machine, (byte != quote) = true := by
    intro byte member
    exact bne_iff_ne.mpr fun equal => unquoted (equal ▸ member)
  have named (behind after : Bytes) :
      left.machine ++ (ascii "\", uid=" ++ behind) = right.machine ++ (ascii "\", uid=" ++ after) ↔
        left.machine = right.machine ∧ behind = after := by
    rw [Bytes.append_eq_iff_of_all (inside unquotedLeft) (inside unquotedRight) rfl rfl,
      List.append_cancel_left_eq]
  simp (disch := decide) only [text, List.append_assoc, List.append_cancel_left_eq,
    number_append_eq_iff, UInt32.toNat_inj, named, Words.text_append_eq_iff, shownAlike_iff,
    and_assoc]

end UnixIdentity

namespace Credential

variable {left right : Credential} {next : String} {behind after : Bytes}

/-- The flavors that have a name. Any other is told by its number. -/
def namedFlavors : List UInt32 := [0, 1, 2, 3, 6]

theorem flavorName_of_not_mem {flavor : UInt32} (unnamed : flavor ∉ namedFlavors) :
    flavorName flavor = ascii "flavor " ++ decimal flavor.toNat := by
  simp only [namedFlavors, List.mem_cons, List.not_mem_nil, or_false, not_or] at unnamed
  unfold flavorName
  split <;> simp_all

theorem flavorName_append_ne {flavor : UInt32} (named : flavor ∈ namedFlavors) :
    flavorName flavor ++ behind ≠ ascii "flavor " ++ after := by
  have capital : namedFlavors.all (fun flavor => (flavorName flavor).head?.any (· != 0x66)) := by
    decide
  exact Bytes.append_ne_of_head? (List.all_eq_true.mp capital flavor named) (by decide) _ _

theorem flavorName_prefixFree {left right : UInt32} (namedLeft : left ∈ namedFlavors)
    (namedRight : right ∈ namedFlavors) (begins : flavorName left <+: flavorName right) :
    left = right := by
  have free : namedFlavors.all fun left => namedFlavors.all fun right =>
      decide (flavorName left <+: flavorName right → left = right) := by
    decide
  have among := List.all_eq_true.mp (List.all_eq_true.mp free left namedLeft) right namedRight
  exact of_decide_eq_true among begins

theorem flavorName_append_eq_iff {left right : UInt32}
    (endsLeft : behind.head?.any isDecimalDigit = false)
    (endsRight : after.head?.any isDecimalDigit = false) :
    flavorName left ++ behind = flavorName right ++ after ↔ left = right ∧ behind = after := by
  by_cases namedLeft : left ∈ namedFlavors
  · by_cases namedRight : right ∈ namedFlavors
    · exact Bytes.append_eq_iff_of_prefixFree
        (fun _ first _ second => flavorName_prefixFree first second) namedLeft namedRight
    · rw [flavorName_of_not_mem namedRight, List.append_assoc]
      refine iff_of_false (flavorName_append_ne namedLeft) ?_
      exact fun same => namedRight (same.1 ▸ namedLeft)
  · rw [flavorName_of_not_mem namedLeft, List.append_assoc]
    by_cases namedRight : right ∈ namedFlavors
    · refine iff_of_false (flavorName_append_ne namedRight).symm ?_
      exact fun same => namedLeft (same.1 ▸ namedRight)
    · rw [flavorName_of_not_mem namedRight, List.append_assoc, List.append_cancel_left_eq,
        decimal_append_eq_iff endsLeft endsRight, UInt32.toNat_inj]

/-- What stands behind the name does not go on with a digit, not even when
nothing stands there. -/
theorem arm_ends (comma : (ascii next).head? = some 0x2c) (credential : Credential) :
    (credential.arm ++ (ascii next ++ behind)).head?.any isDecimalDigit = false := by
  have plain (body : Bytes) :
      (bodyText body ++ (ascii next ++ behind)).head?.any isDecimalDigit = false := by
    cases body with
    | nil =>
        rw [bodyText_nil, List.nil_append, List.head?_append, comma]
        rfl
    | cons byte rest => rfl
  cases credential with
  | none body => exact plain body
  | sys identity => rfl
  | short body => exact plain body
  | other flavor body _ => exact plain body

theorem bodyText_append_eq_iff (comma : (ascii next).head? = some 0x2c) {left right : Bytes} :
    bodyText left ++ (ascii next ++ behind) = bodyText right ++ (ascii next ++ after) ↔
      left.ShownAlike right ∧ behind = after := by
  have commaFirst : (ascii next).head?.any (· == 0x2c) = true := by
    rw [comma]
    rfl
  have blank (byte : UInt8) (rest behind after : Bytes) :
      ascii next ++ behind ≠ bodyText (byte :: rest) ++ after :=
    Bytes.append_ne_of_head? commaFirst rfl behind after
  cases left with
  | nil =>
      cases right with
      | nil => simp [bodyText_nil, Bytes.shownAlike_iff]
      | cons byte rest => exact iff_of_false (blank byte rest _ _) (by simp [Bytes.shownAlike_iff])
  | cons first others =>
      cases right with
      | nil => exact iff_of_false (blank first others _ _).symm (by simp [Bytes.shownAlike_iff])
      | cons byte rest =>
          rw [bodyText_cons, bodyText_cons, List.append_assoc, List.append_assoc,
            List.append_cancel_left_eq, Bytes.text_append_eq_iff, List.append_cancel_left_eq]

/-- Credentials of two kinds differ in their flavor, so that the name of the
flavor tells how the rest is to be read. -/
theorem kind_eq_of_flavor_eq (same : left.flavor = right.flavor) : left.kind = right.kind := by
  rw [kind_eq_ofFlavor, same, ← kind_eq_ofFlavor]

theorem text_append_eq_iff (comma : (ascii next).head? = some 0x2c)
    (unquotedLeft : left.Unquoted) (unquotedRight : right.Unquoted) :
    left.text ++ (ascii next ++ behind) = right.text ++ (ascii next ++ after) ↔
      left.ShownAlike right ∧ behind = after := by
  rw [text_eq, text_eq, List.append_assoc, List.append_assoc,
    flavorName_append_eq_iff (arm_ends comma left) (arm_ends comma right)]
  refine (and_iff_right_of_imp fun same => kind_eq_of_flavor_eq same.1).symm.trans ?_
  cases left with
  | none left =>
      cases right with
      | none right =>
          simp only [kind, flavor, true_and, arm, bodyText_append_eq_iff comma, ShownAlike]
      | _ => simp [kind, ShownAlike]
  | sys left =>
      cases right with
      | sys right =>
          have unquoted : quote ∉ left.machine ∧ quote ∉ right.machine :=
            ⟨unquotedLeft _ List.mem_cons_self, unquotedRight _ List.mem_cons_self⟩
          simp only [kind, flavor, true_and, arm, ShownAlike, List.append_cancel_left_eq,
            UnixIdentity.text_append_eq_iff unquoted.1 unquoted.2]
      | _ => simp [kind, ShownAlike]
  | short left =>
      cases right with
      | short right =>
          simp only [kind, flavor, true_and, arm, bodyText_append_eq_iff comma, ShownAlike]
      | _ => simp [kind, ShownAlike]
  | other leftFlavor left _ =>
      cases right with
      | other rightFlavor right _ =>
          simp only [kind, flavor, true_and, arm, bodyText_append_eq_iff comma, ShownAlike,
            and_assoc]
      | _ => simp [kind, ShownAlike]

end Credential

/-! ## Calls and replies -/

variable {behind after : Bytes}

theorem Call.text_append_eq_iff {left right : Call}
    (unquotedLeft : ∀ credential ∈ left.credentials, credential.Unquoted)
    (unquotedRight : ∀ credential ∈ right.credentials, credential.Unquoted) :
    left.text ++ behind = right.text ++ after ↔ left.ShownAlike right ∧ behind = after := by
  have asks (behind after : Bytes) :
      left.credential.text ++ (ascii ", verf=" ++ behind) =
          right.credential.text ++ (ascii ", verf=" ++ after) ↔
        left.credential.ShownAlike right.credential ∧ behind = after :=
    Credential.text_append_eq_iff rfl (unquotedLeft _ (by simp [credentials]))
      (unquotedRight _ (by simp [credentials]))
  have verifies (behind after : Bytes) :
      left.verifier.text ++ (ascii ", args=" ++ behind) =
          right.verifier.text ++ (ascii ", args=" ++ after) ↔
        left.verifier.ShownAlike right.verifier ∧ behind = after :=
    Credential.text_append_eq_iff rfl (unquotedLeft _ (by simp [credentials]))
      (unquotedRight _ (by simp [credentials]))
  simp (disch := decide) only [text, List.append_assoc, List.append_cancel_left_eq,
    number_append_eq_iff, UInt32.toNat_inj, asks, verifies, Bytes.text_append_eq_iff,
    shownAlike_iff, and_assoc]

theorem Outcome.text_append_eq_iff {left right : Outcome} :
    left.text ++ behind = right.text ++ after ↔ left.ShownAlike right ∧ behind = after := by
  rw [text_eq, text_eq, List.append_assoc, List.append_assoc, Tag.name_append_eq_iff (by decide)]
  cases left <;> cases right <;>
    simp [kind, arm, ShownAlike, Bytes.text_append_eq_iff, VersionRange.text_append_eq_iff]

theorem Rejection.text_append_eq_iff {left right : Rejection} :
    left.text ++ behind = right.text ++ after ↔ left = right ∧ behind = after := by
  rw [text_eq, text_eq, List.append_assoc, List.append_assoc, Tag.name_append_eq_iff (by decide)]
  have named (left right : AuthStatus) :
      ascii (Tag.name left) ++ behind = ascii (Tag.name right) ++ after ↔
        left = right ∧ behind = after :=
    Tag.name_append_eq_iff (by decide)
  cases left <;> cases right <;> simp [kind, arm, VersionRange.text_append_eq_iff, named]

theorem Reply.text_append_eq_iff {left right : Reply}
    (unquotedLeft : ∀ credential ∈ left.credentials, credential.Unquoted)
    (unquotedRight : ∀ credential ∈ right.credentials, credential.Unquoted) :
    left.text ++ behind = right.text ++ after ↔ left.ShownAlike right ∧ behind = after := by
  simp only [text_eq, List.append_assoc, List.append_cancel_left_eq]
  rw [Tag.name_append_eq_iff (by decide), List.append_cancel_left_eq]
  cases left with
  | accepted leftVerifier left =>
      cases right with
      | accepted rightVerifier right =>
          have verifies (behind after : Bytes) :
              leftVerifier.text ++ (ascii ", " ++ behind) =
                  rightVerifier.text ++ (ascii ", " ++ after) ↔
                leftVerifier.ShownAlike rightVerifier ∧ behind = after :=
            Credential.text_append_eq_iff rfl (unquotedLeft _ List.mem_cons_self)
              (unquotedRight _ List.mem_cons_self)
          simp only [kind, true_and, arm, List.append_assoc, List.append_cancel_left_eq, verifies,
            Outcome.text_append_eq_iff, ShownAlike, and_assoc]
      | denied right => simp [kind, ShownAlike]
  | denied left =>
      cases right with
      | accepted rightVerifier right => simp [kind, ShownAlike]
      | denied right =>
          simp only [kind, true_and, arm, List.append_cancel_left_eq,
            Rejection.text_append_eq_iff, ShownAlike]

/-! ## Messages -/

namespace Message

theorem Body.text_append_eq_iff {left right : Body}
    (unquotedLeft : ∀ credential ∈ left.credentials, credential.Unquoted)
    (unquotedRight : ∀ credential ∈ right.credentials, credential.Unquoted) :
    left.text ++ behind = right.text ++ after ↔ left.ShownAlike right ∧ behind = after := by
  have different (content : Call) (reply : Reply) (behind after : Bytes) :
      content.text ++ behind ≠ reply.text ++ after := by
    have first : (ascii "CALL\x7bprog=").head?.any (· == 0x43) = true := rfl
    rw [Call.text, Reply.text_eq]
    simp only [List.append_assoc]
    exact Bytes.append_ne_of_head? first rfl _ _
  cases left with
  | call left =>
      cases right with
      | call right => exact Call.text_append_eq_iff unquotedLeft unquotedRight
      | reply right => exact iff_of_false (different left right _ _) fun same => same.1
  | reply left =>
      cases right with
      | call right => exact iff_of_false (different right left _ _).symm fun same => same.1
      | reply right => exact Reply.text_append_eq_iff unquotedLeft unquotedRight

/-- The text of a message tells the message, but for what is behind the shown
bytes. -/
theorem text_eq_iff_shownAlike {left right : Message} (unquotedLeft : left.Unquoted)
    (unquotedRight : right.Unquoted) : left.text = right.text ↔ left.ShownAlike right := by
  have number : Word.toBytes left.xid = Word.toBytes right.xid ↔ left.xid = right.xid := by
    constructor
    · intro same
      rw [← Word.ofBytes_toBytes left.xid, same, Word.ofBytes_toBytes]
    · exact congrArg Word.toBytes
  have size : (Word.toBytes left.xid).length = (Word.toBytes right.xid).length := rfl
  simp only [text, List.append_assoc, List.append_cancel_left_eq]
  rw [Bytes.hex_append_eq_iff size, List.append_cancel_left_eq,
    Body.text_append_eq_iff unquotedLeft unquotedRight, number, and_iff_left rfl, shownAlike_iff]

/-- A call from a machine whose name looks like the end of its own text. -/
def sampleShown (arguments : Bytes) : Message where
  xid := 7
  body := .call {
    program := 100003
    credential := .sys { machine := ascii "a, b\x7d", gids := .host [4, 20] }
    arguments }

theorem shownAlike_sampleShown_iff {left right : Bytes} :
    (sampleShown left).ShownAlike (sampleShown right) ↔ left.ShownAlike right := by
  constructor
  · intro alike
    have content : Call.ShownAlike _ _ := alike.body
    exact content.arguments
  · intro alike
    refine ⟨rfl, ?_⟩
    change Call.ShownAlike _ _
    exact ⟨rfl, rfl, rfl, .refl _, .refl _, alike⟩

/-- Of two calls with forty bytes of arguments that differ in one byte the texts
are the same or not, by whether the byte is shown. -/
theorem text_eq_iff_shownAlike_sample :
    let plain := sampleShown (Bytes.zeros 40)
    let early := sampleShown (Bytes.zeros 31 ++ 1 :: Bytes.zeros 8)
    let late := sampleShown (Bytes.zeros 32 ++ 1 :: Bytes.zeros 7)
    plain.Unquoted ∧ early.Unquoted ∧ late.Unquoted ∧ plain.text ≠ early.text ∧
      plain.text = late.text := by
  intro plain early late
  have unquoted (arguments : Bytes) : (sampleShown arguments).Unquoted := by
    have closed : (sampleShown []).Unquoted := by decide
    exact closed
  refine ⟨unquoted _, unquoted _, unquoted _, ?_, ?_⟩
  · intro same
    have alike := (text_eq_iff_shownAlike (unquoted _) (unquoted _)).mp same
    exact absurd (shownAlike_sampleShown_iff.mp alike) (by decide)
  · have alike : plain.ShownAlike late := shownAlike_sampleShown_iff.mpr (by decide)
    exact (text_eq_iff_shownAlike (unquoted _) (unquoted _)).mpr alike

/-- A quote in a name can make two calls look the same. -/
example :
    let quoted (first second : String) : Message :=
      { body := .call {
          credential := .sys { machine := ascii first }
          verifier := .sys { machine := ascii second } } }
    let left := quoted "a"
      "b\", uid=0, gid=0, gids=[]\x7d, verf=AUTH_SYS\x7bstamp=0, machine=\"c"
    let right := quoted
      "a\", uid=0, gid=0, gids=[]\x7d, verf=AUTH_SYS\x7bstamp=0, machine=\"b" "c"
    (left == right) = false ∧ left.text = right.text := by
  decide +kernel

end Message

end RpcWire
