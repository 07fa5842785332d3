import RpcWire.Dump

open RpcWire

/-! The command as a program: it reads the files that its arguments name and
prints what `Dump.run` says about them. -/

/-- A path that can be opened but not read is taken for a directory. -/
def readEntry (path : Bytes) : IO Entry := do
  match String.fromUTF8? ⟨path.toArray⟩ with
  | none => return .missing
  | some name =>
      match ← (IO.FS.Handle.mk name .read).toBaseIO with
      | .error _ => return .missing
      | .ok handle =>
          match ← handle.readBinToEnd.toBaseIO with
          | .error _ => return .directory
          | .ok content => return .file content.toList

def main (arguments : List String) : IO UInt32 := do
  let arguments := arguments.map fun argument => argument.toUTF8.toList
  let entries ← (Request.files (Request.ofArguments arguments)).mapM fun path => do
    return (path, ← readEntry path)
  let result := Dump.run (ascii "rpcdump") arguments fun path =>
    (entries.lookup path).getD .missing
  let out ← IO.getStdout
  out.write ⟨result.out.toArray⟩
  out.flush
  let err ← IO.getStderr
  err.write ⟨result.err.toArray⟩
  err.flush
  return UInt32.ofNat result.exit
