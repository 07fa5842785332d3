import RpcWire.VersionRange

namespace RpcWire

/-! # Outcomes of an accepted call

The results of a successful procedure are kept as they stand. Like the
arguments of a call they run to the end of the message. -/

inductive Outcome where
  | success (results : Bytes)
  | programUnavailable
  | programMismatch (versions : VersionRange)
  | procedureUnavailable
  | garbageArguments
  | systemError
deriving DecidableEq

namespace Outcome

instance : Inhabited Outcome := ⟨success []⟩

inductive Kind where
  | success
  | programUnavailable
  | programMismatch
  | procedureUnavailable
  | garbageArguments
  | systemError
deriving DecidableEq

instance : Tag Kind where
  all := [.success, .programUnavailable, .programMismatch, .procedureUnavailable,
    .garbageArguments, .systemError]
  name
    | .success => "SUCCESS"
    | .programUnavailable => "PROG_UNAVAIL"
    | .programMismatch => "PROG_MISMATCH"
    | .procedureUnavailable => "PROC_UNAVAIL"
    | .garbageArguments => "GARBAGE_ARGS"
    | .systemError => "SYSTEM_ERR"
  complete kind := by cases kind <;> simp

def kind : Outcome → Kind
  | success _ => .success
  | programUnavailable => .programUnavailable
  | programMismatch _ => .programMismatch
  | procedureUnavailable => .procedureUnavailable
  | garbageArguments => .garbageArguments
  | systemError => .systemError

example : Tag.toWord (programMismatch ⟨1, 2⟩).kind = 2 := rfl

def size : Outcome → Nat
  | success results => 4 + results.length
  | programMismatch _ => 4 + 8
  | programUnavailable | procedureUnavailable | garbageArguments | systemError => 4

def write (outcome : Outcome) : Writing Unit := do
  .tag outcome.kind
  match outcome with
  | success results => .raw results
  | programMismatch versions => versions.write
  | programUnavailable | procedureUnavailable | garbageArguments | systemError => pure ()

def read : Reading Outcome := do
  match ← .tag Kind .unknownAcceptStatus with
  | .success => return success (← .tail)
  | .programUnavailable => return programUnavailable
  | .programMismatch => return programMismatch (← VersionRange.read)
  | .procedureUnavailable => return procedureUnavailable
  | .garbageArguments => return garbageArguments
  | .systemError => return systemError

def text (outcome : Outcome) : Bytes :=
  ascii (Tag.name outcome.kind) ++
    match outcome with
    | success results => ascii " " ++ Bytes.text results
    | programMismatch versions => versions.text
    | programUnavailable | procedureUnavailable | garbageArguments | systemError => []

example : (success []).text = ascii "SUCCESS [0]" := rfl

end Outcome

end RpcWire
