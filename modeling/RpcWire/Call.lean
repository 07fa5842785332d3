import RpcWire.Credential

namespace RpcWire

/-! # Calls

The arguments of the called procedure are kept as they stand. They have no
length of their own and run to the end of the message. -/

structure Call where
  program : UInt32 := 0
  version : UInt32 := 0
  procedure : UInt32 := 0
  credential : Credential := default
  verifier : Credential := default
  arguments : Bytes := []
deriving Inhabited

namespace Call

instance : BEq Call := ⟨fun left right =>
  left.program == right.program && left.version == right.version &&
    left.procedure == right.procedure && left.credential == right.credential &&
    left.verifier == right.verifier && left.arguments == right.arguments⟩

def protocolVersion : UInt32 := 2

def size (call : Call) : Nat :=
  4 + 4 + 4 + 4 + call.credential.size + call.verifier.size + call.arguments.length

def write (call : Call) : Writing Unit := do
  .word protocolVersion
  .word call.program
  .word call.version
  .word call.procedure
  call.credential.write
  call.verifier.write
  .raw call.arguments

/-- The version is judged before anything behind it is read. -/
def read (policy : Policy) : Reading Call := do
  let spoken ← .word
  .ensure (spoken = protocolVersion) (.unknownRpcVersion spoken)
  let program ← .word
  let version ← .word
  let procedure ← .word
  let credential ← Credential.read policy
  let verifier ← Credential.read policy
  let arguments ← .tail
  return { program, version, procedure, credential, verifier, arguments }

def text (call : Call) : Bytes :=
  ascii "CALL\x7bprog=" ++ decimal call.program.toNat ++
    ascii ", vers=" ++ decimal call.version.toNat ++
    ascii ", proc=" ++ decimal call.procedure.toNat ++
    ascii ", cred=" ++ call.credential.text ++
    ascii ", verf=" ++ call.verifier.text ++
    ascii ", args=" ++ Bytes.text call.arguments ++ ascii "\x7d"

end Call

end RpcWire
