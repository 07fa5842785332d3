import RpcWire.Reply
import RpcWire.Call

namespace RpcWire

/-! # Scripts of readings

A script is a list of steps on one cursor. A step that fails does not end the
script: the next one goes on from where the cursor was left. -/

namespace ReadScript

inductive Step where
  | word
  | int
  | double
  | long
  | bool
  | counted
  | string
  | fixed (length : Nat)
  | words
  | tail
  | array (minimum : Nat) (item : Step)
  | fixedArray (count minimum : Nat) (item : Step)
  | identity
  | credential
  | call
  | outcome
  | rejection
  | reply

inductive Value where
  | word (value : UInt32)
  | int (value : Int32)
  | double (value : UInt64)
  | long (value : Int64)
  | bool (value : Bool)
  | data (bytes : Bytes)
  | string (bytes : Bytes)
  | words (words : Words)
  | array (items : List Value)
  | fixedArray (items : List Value)
  | identity (identity : UnixIdentity)
  | credential (credential : Credential)
  | call (call : Call)
  | outcome (outcome : Outcome)
  | rejection (rejection : Rejection)
  | reply (reply : Reply)

namespace Step

def read (policy : Policy) : Step → Reading Value
  | word => return .word (← Reading.word)
  | int => return .int (← Reading.int)
  | double => return .double (← Reading.double)
  | long => return .long (← Reading.long)
  | bool => return .bool (← Reading.bool)
  | counted => return .data (← Reading.counted policy)
  | string => return .string (← Reading.counted policy)
  | fixed length => return .data (← Reading.fixed policy length)
  | words => return .words (← Reading.words)
  | tail => return .data (← Reading.tail)
  | array minimum item =>
      return .array (← Reading.array minimum fun _ => item.read policy)
  | fixedArray count minimum item =>
      return .fixedArray (← Reading.fixedArray count minimum fun _ => item.read policy)
  | identity => return .identity (← UnixIdentity.read policy)
  | credential => return .credential (← Credential.read policy)
  | call => return .call (← Call.read policy)
  | outcome => return .outcome (← Outcome.read)
  | rejection => return .rejection (← Rejection.read)
  | reply => return .reply (← Reply.read policy)

/-- The elements of an array that are complete when it ends, failed or not. -/
def completed? (policy : Policy) (cursor : Cursor) : Step → Option (List Value)
  | array minimum item =>
      some (Reading.arrayProgress minimum (fun _ => item.read policy) cursor).items
  | fixedArray count minimum item =>
      some (Reading.fixedArrayProgress count minimum (fun _ => item.read policy) cursor).items
  | _ => none

end Step

/-- What one step did. `completed` tells how far the elements of an array came. -/
structure Record where
  result : Except Fault Value
  completed : Option (List Value)
  cursor : Cursor

def Step.run (policy : Policy) (step : Step) (cursor : Cursor) : Record :=
  let completed := step.completed? policy cursor
  match (step.read policy).run cursor with
  | .ok value next => { result := .ok value, completed, cursor := next }
  | .error fault next => { result := .error fault, completed, cursor := next }

def run (policy : Policy) : List Step → Cursor → List Record
  | [], _ => []
  | step :: rest, cursor =>
      let record := step.run policy cursor
      record :: run policy rest record.cursor

end ReadScript

end RpcWire
