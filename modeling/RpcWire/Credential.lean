import RpcWire.UnixIdentity

namespace RpcWire

/-! # Credentials

A credential, or the verifier that answers one, is a flavor number and a body.
Three flavors have a form of their own here. Any other is kept as a number with
its body as it stands, and such a number is never one of the three, so that
each credential has one form. -/

inductive Credential where
  | none (body : Bytes)
  | sys (identity : UnixIdentity)
  | short (body : Bytes)
  | other (flavor : UInt32) (body : Bytes) (plain : 2 < flavor)

namespace Credential

instance : Inhabited Credential := ⟨none []⟩

instance : BEq Credential := ⟨fun left right =>
  match left, right with
  | none left, none right => left == right
  | sys left, sys right => left == right
  | short left, short right => left == right
  | other leftFlavor leftBody _, other rightFlavor rightBody _ =>
      leftFlavor == rightFlavor && leftBody == rightBody
  | _, _ => false⟩

theorem plain_iff {flavor : UInt32} :
    2 < flavor ↔ flavor ≠ 0 ∧ flavor ≠ 1 ∧ flavor ≠ 2 := by
  grind

/-- A credential of a flavor without a form of its own. -/
def other? (flavor : UInt32) (body : Bytes) : Except Fault Credential :=
  if plain : 2 < flavor then .ok (other flavor body plain)
  else .error (.reservedFlavor flavor)

def flavor : Credential → UInt32
  | none _ => 0
  | sys _ => 1
  | short _ => 2
  | other flavor _ _ => flavor

/-- The body as raw bytes; a structured body has none. -/
def body : Credential → Bytes
  | none body => body
  | sys _ => []
  | short body => body
  | other _ body _ => body

def identity? : Credential → Option UnixIdentity
  | sys identity => some identity
  | _ => Option.none

/-- The length of the encoded body, without its padding. -/
def bodySize : Credential → Nat
  | sys identity => identity.size
  | credential => credential.body.length

/-- The number of bytes that flavor, length and padded body take. -/
def size (credential : Credential) : Nat := 4 + countedSize credential.bodySize

/-! ## On the wire -/

/-- A structured body is written field by field behind its length. That length
is cut to a word without a check. -/
def write (credential : Credential) : Writing Unit := do
  .word credential.flavor
  match credential with
  | sys identity =>
      .word (UInt32.ofNat identity.size)
      identity.write
  | none body | short body | other _ body _ => .counted body

/-- The identity that a body holds. The body is read on its own, as if nothing
stood before or behind it, and has to be used up. -/
def identityOfBody (policy : Policy) (body : Bytes) : Except Fault UnixIdentity :=
  match (UnixIdentity.read policy).run (.ofBytes body) with
  | .ok identity cursor =>
      if cursor.remaining = 0 then .ok identity
      else .error (.bodyLeftOver cursor.remaining)
  | .error fault _ => .error fault

def ofBody (policy : Policy) (flavor : UInt32) (body : Bytes) : Except Fault Credential :=
  if flavor = 0 then .ok (none body)
  else if flavor = 1 then (identityOfBody policy body).map sys
  else if flavor = 2 then .ok (short body)
  else other? flavor body

/-- The body is taken whole, and its length compared with the limit, before the
flavor decides what it means. -/
def read (policy : Policy) : Reading Credential := do
  let flavor ← .word
  let body ← .counted policy
  .ensure (exceeds policy.maxBody body.length = false) (.bodyTooLong body.length policy.maxBody)
  MonadExcept.ofExcept (ofBody policy flavor body)

/-! ## Text -/

/-- The name of a flavor. Two flavors have a name but no form of their own. -/
def flavorName (flavor : UInt32) : Bytes :=
  match flavor with
  | 0 => ascii "AUTH_NONE"
  | 1 => ascii "AUTH_SYS"
  | 2 => ascii "AUTH_SHORT"
  | 3 => ascii "AUTH_DH"
  | 6 => ascii "RPCSEC_GSS"
  | _ => ascii "flavor " ++ decimal flavor.toNat

def text (credential : Credential) : Bytes :=
  flavorName credential.flavor ++
    match credential with
    | sys identity => identity.text
    | none body | short body | other _ body _ =>
        if body.isEmpty then [] else ascii " " ++ Bytes.text body

example : (none []).text = ascii "AUTH_NONE" := rfl
example : (short [7]).text = ascii "AUTH_SHORT [1] 07" := rfl

end Credential

end RpcWire
