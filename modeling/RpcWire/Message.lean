import RpcWire.Call
import RpcWire.Reply

namespace RpcWire

/-! # Messages

A message is a call or a reply under a transaction number, by which a reply
finds its call. -/

inductive Message.Body where
  | call (content : Call)
  | reply (content : Reply)

structure Message where
  xid : UInt32 := 0
  body : Message.Body := .call default

namespace Message

namespace Body

instance : BEq Body := ⟨fun left right =>
  match left, right with
  | call left, call right => left == right
  | reply left, reply right => left == right
  | _, _ => false⟩

inductive Kind where
  | call
  | reply
deriving DecidableEq

instance : Tag Kind where
  all := [.call, .reply]
  name
    | .call => "CALL"
    | .reply => "REPLY"
  complete kind := by cases kind <;> simp

def kind : Body → Kind
  | call _ => .call
  | reply _ => .reply

def size : Body → Nat
  | call content => content.size
  | reply content => content.size

def write : Body → Writing Unit
  | call content => content.write
  | reply content => content.write

def text : Body → Bytes
  | call content => content.text
  | reply content => content.text

end Body

instance : BEq Message := ⟨fun left right =>
  left.xid == right.xid && left.body == right.body⟩

def size (message : Message) : Nat := 4 + 4 + message.body.size

/-! ## Writing -/

def write (message : Message) : Writing Unit := do
  .word message.xid
  .tag message.body.kind
  message.body.write

/-- Write into the front of a buffer and say how many bytes were written. The
size is compared with the buffer first, so a buffer that is too small is not
touched. -/
def writeInto (message : Message) : EStateM Fault Bytes Nat := fun buffer =>
  if buffer.length < message.size then
    .error (.messageTooLarge message.size buffer.length) buffer
  else
    match message.write.run (.ofBuffer buffer) with
    | .ok () region => .ok region.written.length region.buffer
    | .error fault region => .error fault region.buffer

/-- The bytes of a message, in a buffer of just its size. -/
def toBytes (message : Message) : Except Fault Bytes :=
  match message.writeInto.run (Bytes.zeros message.size) with
  | .ok _ buffer => .ok buffer
  | .error fault _ => .error fault

/-! ## Reading -/

def read (policy : Policy) : Reading Message := do
  let xid ← .word
  match ← .tag Body.Kind .unknownMessageType with
  | .call => return { xid, body := .call (← Call.read policy) }
  | .reply => return { xid, body := .reply (← Reply.read policy) }

/-- A message that was found at the front of some bytes, and how many of them it
took. -/
structure Found where
  message : Message
  consumed : Nat

def ofBytes (policy : Policy) (bytes : Bytes) : Except Fault Found :=
  match (read policy).run (.ofBytes bytes) with
  | .ok message cursor => .ok { message, consumed := cursor.offset }
  | .error fault _ => .error fault

/-! ## Text -/

def text (message : Message) : Bytes :=
  ascii "RpcMessage\x7bxid=0x" ++ Bytes.hex (Word.toBytes message.xid) ++ ascii ", " ++
    message.body.text ++ ascii "\x7d"

example : (text { xid := 255, body := .reply (.denied (.rpcMismatch ⟨2, 2⟩)) }) =
    ascii "RpcMessage\x7bxid=0x000000ff, REPLY\x7bMSG_DENIED, RPC_MISMATCH\x7b2..2\x7d\x7d\x7d" :=
  rfl

end Message

end RpcWire
