import RpcWire.Dump
import RpcWire.Proofs.Texts

namespace RpcWire

/-! # Lines

A text is meant to be one line. All that it is made of is printable, but for the
machine names: these are copied byte by byte as they came. So a text is one line
unless a machine name breaks it. -/

def isPrintable (byte : UInt8) : Bool := 0x20 ≤ byte && byte ≤ 0x7e

def lineFeed : UInt8 := 0x0a

namespace Bytes

/-- Line feeds, other control characters and what is not ASCII, in order. -/
def unprintable (text : Bytes) : Bytes := text.filter fun byte => !isPrintable byte

variable {text : Bytes}

@[simp] theorem unprintable_append (front back : Bytes) :
    unprintable (front ++ back) = unprintable front ++ unprintable back :=
  List.filter_append front back

@[simp] theorem unprintable_nil : unprintable [] = [] := rfl

theorem unprintable_eq_nil_iff : unprintable text = [] ↔ text.all isPrintable = true := by
  simp [unprintable]

theorem unprintable_eq_nil (plain : ∀ byte ∈ text, isPrintable byte = true) :
    unprintable text = [] :=
  unprintable_eq_nil_iff.mpr (List.all_eq_true.mpr plain)

theorem unprintable_ascii {fixed : String} (plain : (ascii fixed).all isPrintable = true) :
    unprintable (ascii fixed) = [] :=
  unprintable_eq_nil_iff.mpr plain

theorem count_lineFeed (text : Bytes) :
    text.count lineFeed = (unprintable text).count lineFeed :=
  (List.count_filter rfl).symm

end Bytes

open Bytes

/-! ## Parts -/

@[simp] theorem unprintable_decimal (number : Nat) : unprintable (decimal number) = [] := by
  apply unprintable_eq_nil
  intro byte member
  have digit := isDecimalDigit_of_mem_decimal member
  simp only [isDecimalDigit, isPrintable, Bool.and_eq_true, decide_eq_true_eq,
    UInt8.le_iff_toNat_le] at digit ⊢
  exact ⟨Nat.le_trans (by decide) digit.1, Nat.le_trans digit.2 (by decide)⟩

theorem isPrintable_hexDigit : ∀ value < 16, isPrintable (hexDigit value) = true := by
  decide

@[simp] theorem Bytes.unprintable_hex (bytes : Bytes) : unprintable (hex bytes) = [] := by
  apply unprintable_eq_nil
  intro digit member
  rcases hexDigit_of_mem_hex member with ⟨value, small, rfl⟩
  exact isPrintable_hexDigit value small

@[simp] theorem Bytes.unprintable_text (bytes : Bytes) : unprintable bytes.text = [] := by
  unfold Bytes.text
  split_ifs <;> simp (disch := decide) [unprintable_ascii]

theorem unprintable_joined {separator : Bytes} {texts : List Bytes}
    (plainSeparator : unprintable separator = [])
    (plain : ∀ text ∈ texts, unprintable text = []) :
    unprintable (joined separator texts) = [] := by
  fun_induction joined separator texts with
  | case1 => rfl
  | case2 text => exact plain text (List.mem_singleton.mpr rfl)
  | case3 text rest _ induction =>
      rw [unprintable_append, unprintable_append, plainSeparator,
        plain text List.mem_cons_self,
        induction fun other member => plain other (List.mem_cons_of_mem _ member)]
      rfl

@[simp] theorem Words.unprintable_text (words : Words) : unprintable words.text = [] := by
  have plain : unprintable (joined (ascii ", ")
      (words.toList.map fun word => decimal word.toNat)) = [] := by
    apply unprintable_joined (unprintable_ascii (by decide))
    intro text member
    rcases List.mem_map.mp member with ⟨word, _, rfl⟩
    exact unprintable_decimal word.toNat
  simp (disch := decide) [Words.text, unprintable_ascii, plain]

@[simp] theorem VersionRange.unprintable_text (range : VersionRange) :
    unprintable range.text = [] := by
  simp (disch := decide) [VersionRange.text, unprintable_ascii]

/-- The names of tags have nothing to do with what was received. -/
theorem Tag.unprintable_name {Kind : Type} [Tag Kind]
    (plain : ∀ kind ∈ (all : List Kind), (ascii (name kind)).all isPrintable = true)
    (kind : Kind) : unprintable (ascii (name kind)) = [] :=
  unprintable_ascii (plain kind (complete kind))

@[simp] theorem Outcome.unprintable_text (outcome : Outcome) :
    unprintable outcome.text = [] := by
  rw [text_eq, unprintable_append, Tag.unprintable_name (by decide), List.nil_append]
  cases outcome <;> simp (disch := decide) [arm, unprintable_ascii]

@[simp] theorem Rejection.unprintable_text (rejection : Rejection) :
    unprintable rejection.text = [] := by
  rw [text_eq, unprintable_append, Tag.unprintable_name (by decide), List.nil_append]
  cases rejection with
  | rpcMismatch versions => exact versions.unprintable_text
  | authError status =>
      rw [arm, unprintable_append, unprintable_ascii (by decide),
        Tag.unprintable_name (by decide), List.nil_append]

/-! ## Texts with machine names -/

theorem UnixIdentity.unprintable_text (identity : UnixIdentity) :
    unprintable identity.text = unprintable identity.machine := by
  simp (disch := decide) [text, unprintable_ascii]

namespace Credential

theorem unprintable_flavorName (flavor : UInt32) : unprintable (flavorName flavor) = [] := by
  unfold flavorName
  split <;> simp (disch := decide) [unprintable_ascii]

theorem unprintable_bodyText (body : Bytes) : unprintable (bodyText body) = [] := by
  cases body with
  | nil => rfl
  | cons byte rest => simp (disch := decide) [bodyText_cons, unprintable_ascii]

theorem unprintable_text (credential : Credential) :
    unprintable credential.text = unprintable credential.machines.flatten := by
  rw [text_eq, unprintable_append, unprintable_flavorName, List.nil_append]
  cases credential with
  | none body => exact unprintable_bodyText body
  | sys identity => rw [arm, identity.unprintable_text, machines, List.flatten_singleton]
  | short body => exact unprintable_bodyText body
  | other flavor body _ => exact unprintable_bodyText body

end Credential

theorem Call.unprintable_text (call : Call) :
    unprintable call.text =
      unprintable (call.credentials.flatMap Credential.machines).flatten := by
  simp (disch := decide) [text, credentials, Credential.unprintable_text, unprintable_ascii]

theorem Reply.unprintable_text (reply : Reply) :
    unprintable reply.text =
      unprintable (reply.credentials.flatMap Credential.machines).flatten := by
  have named := Tag.unprintable_name (by decide) reply.kind
  have armed : unprintable reply.arm =
      unprintable (reply.credentials.flatMap Credential.machines).flatten := by
    cases reply with
    | accepted verifier outcome =>
        simp (disch := decide) [arm, credentials, verifier.unprintable_text, unprintable_ascii]
    | denied rejection => exact rejection.unprintable_text
  simp (disch := decide) [text_eq, named, armed, unprintable_ascii]

theorem Message.unprintable_text (message : Message) :
    unprintable message.text = unprintable message.machines.flatten := by
  have inner : unprintable message.body.text = unprintable message.machines.flatten := by
    cases message with
    | mk xid body =>
        cases body with
        | call content => exact content.unprintable_text
        | reply content => exact content.unprintable_text
  simp (disch := decide) [text, inner, unprintable_ascii]

/-! ## Lines of the dump -/

namespace Dump

theorem count_lineFeed_line (path text : Bytes) :
    (line path text).count lineFeed = path.count lineFeed + text.count lineFeed + 1 := by
  have fixed : (ascii ": ").count lineFeed = 0 ∧ (ascii "\n").count lineFeed = 1 := by decide
  rw [line, List.count_append, List.count_append, List.count_append, fixed.1, fixed.2]
  rfl

/-- The line about the bytes behind a message. -/
theorem count_lineFeed_trailing (path : Bytes) (number : Nat) :
    (line path (decimal number ++ ascii " trailing bytes after message")).count lineFeed =
      path.count lineFeed + 1 := by
  have plain : unprintable (decimal number ++ ascii " trailing bytes after message") = [] := by
    simp (disch := decide) [unprintable_ascii]
  rw [count_lineFeed_line, Bytes.count_lineFeed (decimal number ++ _), plain]
  rfl

theorem count_lineFeed_describe (path : Bytes) (found : Message.Found) (length : Nat) :
    (describe path found length).count lineFeed =
      path.count lineFeed + found.message.machines.flatten.count lineFeed + 1 +
        if found.consumed = length then 0 else path.count lineFeed + 1 := by
  rw [describe, List.count_append, count_lineFeed_line, Bytes.count_lineFeed found.message.text,
    Message.unprintable_text, ← Bytes.count_lineFeed]
  split_ifs with used
  · rfl
  · rw [count_lineFeed_trailing]

end Dump

/-! ## Where a text breaks -/

/-- What is not printable in the text are the same bytes of the names, so that
only a name can break the line. -/
structure Bytes.BreaksOnlyIn (text : Bytes) (names : List Bytes) : Prop where
  copied : unprintable text = unprintable names.flatten
  single : lineFeed ∉ text ↔ ∀ name ∈ names, lineFeed ∉ name

theorem Bytes.breaksOnlyIn_of_unprintable {text : Bytes} {names : List Bytes}
    (copied : unprintable text = unprintable names.flatten) : text.BreaksOnlyIn names := by
  have single : lineFeed ∉ text ↔ lineFeed ∉ names.flatten := by
    rw [← List.count_eq_zero, ← List.count_eq_zero, Bytes.count_lineFeed, copied,
      ← Bytes.count_lineFeed]
  refine ⟨copied, single.trans ?_⟩
  simp only [List.mem_flatten, not_exists, not_and]

/-- A text of any kind is one line just when each of its machine names is. But
for the line feeds of these, and for those of the path, the dump command prints
one line for a message, and a second one when bytes are left behind it. -/
theorem Message.lines_broken_by_machines (identity : UnixIdentity) (credential : Credential)
    (call : Call) (reply : Reply) (found : Found) (path : Bytes) (length : Nat) :
    identity.text.BreaksOnlyIn [identity.machine] ∧
    credential.text.BreaksOnlyIn credential.machines ∧
    call.text.BreaksOnlyIn (call.credentials.flatMap Credential.machines) ∧
    reply.text.BreaksOnlyIn (reply.credentials.flatMap Credential.machines) ∧
    found.message.text.BreaksOnlyIn found.message.machines ∧
    (Dump.describe path found length).count lineFeed =
      path.count lineFeed + found.message.machines.flatten.count lineFeed + 1 +
        if found.consumed = length then 0 else path.count lineFeed + 1 := by
  have named : identity.text.BreaksOnlyIn [identity.machine] := by
    apply breaksOnlyIn_of_unprintable
    rw [identity.unprintable_text, List.flatten_singleton]
  exact ⟨named, breaksOnlyIn_of_unprintable credential.unprintable_text,
    breaksOnlyIn_of_unprintable call.unprintable_text,
    breaksOnlyIn_of_unprintable reply.unprintable_text,
    breaksOnlyIn_of_unprintable found.message.unprintable_text,
    Dump.count_lineFeed_describe path found length⟩

/-- A call from a machine whose name is a letter, a line feed and a letter. -/
def sampleBroken : Bytes :=
  [0, 0, 0, 7, 0, 0, 0, 0, 0, 0, 0, 2, 0, 1, 0x86, 0xa3, 0, 0, 0, 3, 0, 0, 0, 1,
    0, 0, 0, 1, 0, 0, 0, 24, 0, 0, 0, 0, 0, 0, 0, 3, 0x61, 0x0a, 0x62, 0,
    0, 0, 0, 0, 0, 0, 0, 0, 0, 0, 0, 0, 0, 0, 0, 0, 0, 0, 0, 0]

/-- The call is accepted, but its text is two lines, and so is what the dump
command prints for it. -/
theorem Message.not_single_line_sampleBroken :
    (∃ found, ofBytes {} sampleBroken = .ok found ∧ lineFeed ∈ found.message.text) ∧
    (Dump.examine {} (ascii "m") (.file sampleBroken)).out =
      ascii "m: RpcMessage\x7bxid=0x00000007, CALL\x7bprog=100003, vers=3, proc=1, " ++
        ascii "cred=AUTH_SYS\x7bstamp=0, machine=\"a\nb\", uid=0, gid=0, gids=[]\x7d, " ++
        ascii "verf=AUTH_NONE, args=[0]\x7d\x7d\n" ∧
    ¬ ∀ bytes found, ofBytes {} bytes = .ok found → lineFeed ∉ found.message.text := by
  have broken : ∃ found, ofBytes {} sampleBroken = .ok found ∧ lineFeed ∈ found.message.text :=
    ⟨_, rfl, by decide⟩
  refine ⟨broken, by decide +kernel, ?_⟩
  intro single
  rcases broken with ⟨found, parses, feed⟩
  exact single _ _ parses feed

end RpcWire
