import RpcWire.Arguments
import RpcWire.FileTree
import RpcWire.HexInput
import RpcWire.Message

namespace RpcWire

/-! # The dump command

Each file is read as one message and printed as one text. Files are judged one
by one: none has any influence on what is said about another. -/

namespace Dump

/-- Why nothing is printed for a file. -/
inductive Failure where
  | missing
  | directory
  | hex (problem : HexInput.Problem)
  | message (fault : Fault)
deriving DecidableEq

namespace Failure

def text (path : Bytes) : Failure → Bytes
  | missing => ascii "cannot open " ++ path
  | directory => ascii "basic_filebuf::underflow error reading the file: Is a directory"
  | hex problem => problem.text
  | message fault => ascii "decode failed: " ++ fault.text

end Failure

structure Verdict where
  out : Bytes := []
  err : Bytes := []
  failed : Bool := false
deriving DecidableEq

def line (path text : Bytes) : Bytes := path ++ ascii ": " ++ text ++ ascii "\n"

def Verdict.failure (path : Bytes) (failure : Failure) : Verdict :=
  { err := line path (failure.text path), failed := true }

/-- What can be read of an entry. A directory can be opened but not read. -/
def content : Entry → Except Failure Bytes
  | .missing => .error .missing
  | .directory => .error .directory
  | .file content => .ok content

def input (settings : Settings) (content : Bytes) : Except Failure Bytes :=
  if settings.hex then (HexInput.read content).mapError .hex else .ok content

/-- The message in an entry, and the length of the bytes that it begins. -/
def find (settings : Settings) (entry : Entry) : Except Failure (Message.Found × Nat) := do
  let bytes ← input settings (← content entry)
  let found ← (Message.ofBytes settings.policy bytes).mapError .message
  return (found, bytes.length)

/-- The message and, where there are any, the number of bytes behind it. -/
def describe (path : Bytes) (found : Message.Found) (length : Nat) : Bytes :=
  line path found.message.text ++
    if found.consumed = length then []
    else line path (decimal (length - found.consumed) ++ ascii " trailing bytes after message")

/-- Judge one file. -/
def examine (settings : Settings) (path : Bytes) (entry : Entry) : Verdict :=
  match find settings entry with
  | .error failure => .failure path failure
  | .ok (found, length) => { out := describe path found length }

example : (examine {} (ascii "d") .directory).failed = true := rfl
example : (examine {} (ascii "m") .missing).err = ascii "m: cannot open m\n" := rfl

/-! ## The whole command -/

def usageLines (program : Bytes) : List Bytes :=
  [ascii "Usage: " ++ program ++ ascii " [options] FILE...",
    [],
    ascii "Decode each FILE as one ONC RPC message (no record mark) and print it.",
    [],
    ascii "Options:",
    ascii "  --hex                Files contain hex text instead of raw bytes",
    ascii "  --strict-padding     Reject non-zero XDR padding bytes",
    ascii "  --max-aux-gids <n>   Reject AUTH_SYS credentials with more than n gids",
    ascii "  --max-auth-body <n>  Reject auth bodies longer than n bytes",
    ascii "  -h, --help           Show this help"]

def usage (program : Bytes) : Bytes :=
  (usageLines program).flatMap fun text => text ++ ascii "\n"

structure Result where
  exit : Nat
  out : Bytes := []
  err : Bytes := []
deriving DecidableEq

/-- All verdicts in order. The run fails when any file did. -/
def summary (verdicts : List Verdict) : Result where
  exit := if verdicts.any (·.failed) then 1 else 0
  out := verdicts.flatMap (·.out)
  err := verdicts.flatMap (·.err)

/-- Run the command. `store` says what each path names. -/
def run (program : Bytes) (arguments : List Bytes) (store : Bytes → Entry) : Result :=
  match Request.ofArguments arguments with
  | .error misuse =>
      { exit := 2, err := program ++ ascii ": " ++ misuse.text ++ ascii "\n" ++ usage program }
  | .ok .help => { exit := 0, err := usage program }
  | .ok (.examine _ []) => { exit := 2, err := usage program }
  | .ok (.examine settings files) =>
      summary (files.map fun path => examine settings path (store path))

end Dump

end RpcWire
