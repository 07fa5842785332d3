import RpcWire.VersionRange

namespace RpcWire

/-! # Rejections

A call is rejected because the server speaks another version of the protocol,
or because it does not accept who is calling. -/

/-- Why a caller is not accepted. The enumeration of the protocol is closed, and nothing
outside it is modelled: a status with another number is no value of this type, so that
it is never read and cannot be written. -/
inductive AuthStatus where
  | ok
  | badCredential
  | rejectedCredential
  | badVerifier
  | rejectedVerifier
  | tooWeak
  | invalidResponse
  | failed
deriving DecidableEq

namespace AuthStatus

instance : Tag AuthStatus where
  all := [.ok, .badCredential, .rejectedCredential, .badVerifier, .rejectedVerifier,
    .tooWeak, .invalidResponse, .failed]
  name
    | .ok => "AUTH_OK"
    | .badCredential => "AUTH_BADCRED"
    | .rejectedCredential => "AUTH_REJECTEDCRED"
    | .badVerifier => "AUTH_BADVERF"
    | .rejectedVerifier => "AUTH_REJECTEDVERF"
    | .tooWeak => "AUTH_TOOWEAK"
    | .invalidResponse => "AUTH_INVALIDRESP"
    | .failed => "AUTH_FAILED"
  complete status := by cases status <;> simp

instance : Inhabited AuthStatus := ⟨failed⟩

def ofWord : UInt32 → Except Fault AuthStatus := Tag.ofWord .unknownAuthStatus

end AuthStatus

inductive Rejection where
  | rpcMismatch (versions : VersionRange)
  | authError (status : AuthStatus)
deriving DecidableEq

namespace Rejection

instance : Inhabited Rejection := ⟨rpcMismatch default⟩

inductive Kind where
  | rpcMismatch
  | authError
deriving DecidableEq

instance : Tag Kind where
  all := [.rpcMismatch, .authError]
  name
    | .rpcMismatch => "RPC_MISMATCH"
    | .authError => "AUTH_ERROR"
  complete kind := by cases kind <;> simp

def kind : Rejection → Kind
  | rpcMismatch _ => .rpcMismatch
  | authError _ => .authError

def size : Rejection → Nat
  | rpcMismatch _ => 4 + 8
  | authError _ => 4 + 4

def write (rejection : Rejection) : Writing Unit := do
  .tag rejection.kind
  match rejection with
  | rpcMismatch versions => versions.write
  | authError status => .tag status

def read : Reading Rejection := do
  match ← .tag Kind .unknownRejectStatus with
  | .rpcMismatch => return rpcMismatch (← VersionRange.read)
  | .authError => return authError (← .tag AuthStatus .unknownAuthStatus)

def text (rejection : Rejection) : Bytes :=
  ascii (Tag.name rejection.kind) ++
    match rejection with
    | rpcMismatch versions => versions.text
    | authError status => ascii " " ++ ascii (Tag.name status)

example : (authError .tooWeak).text = ascii "AUTH_ERROR AUTH_TOOWEAK" := rfl

end Rejection

end RpcWire
