import RpcWire.Reply
import RpcWire.Call

namespace RpcWire

/-! # Scripts of writings

A script is a list of steps on one region. A step that fails does not end the
script: the next one goes on behind what has been written. -/

namespace WriteScript

inductive Step where
  | word (value : UInt32)
  | int (value : Int32)
  | double (value : UInt64)
  | long (value : Int64)
  | bool (value : Bool)
  | counted (data : Bytes)
  | string (data : Bytes)
  | fixed (data : Bytes)
  | raw (data : Bytes)
  | words (values : Words)
  | array (items : List Step)
  | fixedArray (items : List Step)
  | identity (identity : UnixIdentity)
  | credential (credential : Credential)
  | call (call : Call)
  | outcome (outcome : Outcome)
  | rejection (rejection : Rejection)
  | reply (reply : Reply)
  /-- A length that is only claimed: its check, without any data behind it. -/
  | claim (count : Nat)
  /-- A value that could not be made stands in the script as its fault. -/
  | refuse (fault : Fault)

namespace Step

mutual

def write : Step → Writing Unit
  | word value => .word value
  | int value => .int value
  | double value => .double value
  | long value => .long value
  | bool value => .bool value
  | counted data => .counted data
  | string data => .counted data
  | fixed data => .fixed data
  | raw data => .raw data
  | words values => .words values
  | array items => do
      .word (← .countWord items.length)
      writeAll items
  | fixedArray items => writeAll items
  | identity value => value.write
  | credential value => value.write
  | call value => value.write
  | outcome value => value.write
  | rejection value => value.write
  | reply value => value.write
  | claim count => discard (Writing.countWord count)
  | refuse fault => throw fault

def writeAll : List Step → Writing Unit
  | [] => pure ()
  | step :: rest => do
      step.write
      writeAll rest

end

theorem writeAll_eq_fixedArray (items : List Step) :
    writeAll items = Writing.fixedArray write items := by
  induction items with
  | nil => rfl
  | cons step rest induction =>
      rw [writeAll, induction]
      rfl

theorem write_array (items : List Step) :
    (array items).write = Writing.array write items := by
  rw [write, writeAll_eq_fixedArray]
  rfl

theorem write_fixedArray (items : List Step) :
    (fixedArray items).write = Writing.fixedArray write items :=
  writeAll_eq_fixedArray items

end Step

structure Record where
  fault : Option Fault
  before : Region
  after : Region

/-- The bytes that the step wrote, also when it failed in the end. -/
def Record.appended (record : Record) : Bytes :=
  record.after.written.drop record.before.written.length

def Step.run (step : Step) (region : Region) : Record :=
  match step.write.run region with
  | .ok () next => { fault := none, before := region, after := next }
  | .error fault next => { fault := some fault, before := region, after := next }

def run : List Step → Region → List Record
  | [], _ => []
  | step :: rest, region =>
      let record := step.run region
      record :: run rest record.after

def finish (steps : List Step) (region : Region) : Region :=
  steps.foldl (fun region step => (step.run region).after) region

end WriteScript

end RpcWire
