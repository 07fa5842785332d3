import RpcWire.Credential
import RpcWire.Outcome
import RpcWire.Rejection

namespace RpcWire

/-! # Replies -/

inductive Reply where
  | accepted (verifier : Credential) (outcome : Outcome)
  | denied (rejection : Rejection)

namespace Reply

instance : Inhabited Reply := ⟨accepted default default⟩

instance : BEq Reply := ⟨fun left right =>
  match left, right with
  | accepted leftVerifier leftOutcome, accepted rightVerifier rightOutcome =>
      leftVerifier == rightVerifier && leftOutcome == rightOutcome
  | denied left, denied right => left == right
  | _, _ => false⟩

inductive Kind where
  | accepted
  | denied
deriving DecidableEq

instance : Tag Kind where
  all := [.accepted, .denied]
  name
    | .accepted => "MSG_ACCEPTED"
    | .denied => "MSG_DENIED"
  complete kind := by cases kind <;> simp

def kind : Reply → Kind
  | accepted .. => .accepted
  | denied _ => .denied

def size : Reply → Nat
  | accepted verifier outcome => 4 + verifier.size + outcome.size
  | denied rejection => 4 + rejection.size

def write (reply : Reply) : Writing Unit := do
  .tag reply.kind
  match reply with
  | accepted verifier outcome =>
      verifier.write
      outcome.write
  | denied rejection => rejection.write

def read (policy : Policy) : Reading Reply := do
  match ← .tag Kind .unknownReplyStatus with
  | .accepted =>
      let verifier ← Credential.read policy
      return accepted verifier (← Outcome.read)
  | .denied => return denied (← Rejection.read)

def text (reply : Reply) : Bytes :=
  ascii "REPLY\x7b" ++ ascii (Tag.name reply.kind) ++ ascii ", " ++
    (match reply with
    | accepted verifier outcome =>
        ascii "verf=" ++ verifier.text ++ ascii ", " ++ outcome.text
    | denied rejection => rejection.text) ++
    ascii "\x7d"

end Reply

end RpcWire
