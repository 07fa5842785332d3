import RpcWire.Numeral
import RpcWire.Reading

namespace RpcWire

/-! # Command-line arguments

Options and files may come in any order. An option that takes a value takes the
next argument, whatever that looks like. An empty argument is a file. -/

structure Settings where
  hex : Bool := false
  policy : Policy := {}
deriving DecidableEq

/-- The options that take a number. -/
inductive Limit where
  | gids
  | body
deriving DecidableEq

namespace Limit

def set (limit : Limit) (value : UInt32) (settings : Settings) : Settings :=
  match limit with
  | gids => { settings with policy.maxGids := value }
  | body => { settings with policy.maxBody := value }

end Limit

/-- What an argument is, taken alone. -/
inductive Argument where
  | help
  | hex
  | strictPadding
  | limit (limit : Limit)
  | unknownOption
  | file
deriving DecidableEq

/-- Only the listed spellings are options; anything else that begins with a
dash is refused. -/
def Argument.of (text : Bytes) : Argument :=
  if text = ascii "-h" ∨ text = ascii "--help" then .help
  else if text = ascii "--hex" then .hex
  else if text = ascii "--strict-padding" then .strictPadding
  else if text = ascii "--max-aux-gids" then .limit .gids
  else if text = ascii "--max-auth-body" then .limit .body
  else if text.head? = some 0x2d then .unknownOption
  else .file

example : Argument.of (ascii "--max-aux-gids") = .limit .gids := rfl
example : Argument.of (ascii "-") = .unknownOption := rfl
example : Argument.of [] = .file := rfl

inductive Misuse where
  | missingValue (option : Bytes)
  | badNumber (text : Bytes)
  | unknownOption (text : Bytes)
deriving DecidableEq

namespace Misuse

def text : Misuse → Bytes
  | missingValue option => option ++ ascii " needs a value"
  | badNumber text => ascii "bad number: " ++ text
  | unknownOption text => ascii "unknown option " ++ text

end Misuse

inductive Request where
  | help
  | examine (settings : Settings) (files : List Bytes)
deriving DecidableEq

namespace Request

/-- Go on from what earlier arguments have set. The first call for help or
mistake ends it. -/
def scan (settings : Settings) (files : List Bytes) : List Bytes → Except Misuse Request
  | [] => .ok (.examine settings files)
  | text :: rest =>
      match Argument.of text with
      | .help => .ok .help
      | .hex => scan { settings with hex := true } files rest
      | .strictPadding => scan { settings with policy.strictPadding := true } files rest
      | .limit limit =>
          match rest with
          | [] => .error (.missingValue text)
          | value :: rest =>
              match readLimit? value with
              | some number => scan (limit.set number settings) files rest
              | none => .error (.badNumber value)
      | .unknownOption => .error (.unknownOption text)
      | .file => scan settings (files ++ [text]) rest

def ofArguments (arguments : List Bytes) : Except Misuse Request := scan {} [] arguments

example : ofArguments [ascii "a", ascii "--max-auth-body", ascii "7"] =
    .ok (.examine { policy.maxBody := 7 } [ascii "a"]) := rfl
example : ofArguments [ascii "--max-auth-body"] =
    .error (.missingValue (ascii "--max-auth-body")) := rfl

/-- The files that are looked at, in order and with repetitions. -/
def files : Except Misuse Request → List Bytes
  | .ok (.examine _ files) => files
  | .ok .help | .error _ => []

end Request

end RpcWire
