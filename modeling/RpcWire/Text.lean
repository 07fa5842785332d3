import RpcWire.Numeral
import RpcWire.Word

namespace RpcWire

/-! # Text of the parts

Every value of a message has a text. These are the texts of the parts that
occur in several of them. -/

/-- How many bytes of a byte string are spelled out. -/
def shownBytes : Nat := 32

/-- The length in brackets, then the first bytes in hexadecimal, with dots where
more follow. -/
def Bytes.text (bytes : Bytes) : Bytes :=
  ascii "[" ++ decimal bytes.length ++ ascii "]" ++
    (if bytes.isEmpty then [] else ascii " " ++ Bytes.hex (bytes.take shownBytes)) ++
    (if shownBytes < bytes.length then ascii "..." else [])

example : Bytes.text [] = ascii "[0]" := rfl
example : Bytes.text [0xde, 0xad] = ascii "[2] dead" := rfl

def joined (separator : Bytes) : List Bytes → Bytes
  | [] => []
  | [text] => text
  | text :: rest => text ++ separator ++ joined separator rest

def Words.text (words : Words) : Bytes :=
  ascii "[" ++
    joined (ascii ", ") (words.toList.map fun word => decimal word.toNat) ++ ascii "]"

example : (Words.host []).text = ascii "[]" := rfl
example : (Words.host [4, 20]).text = ascii "[4, 20]" := rfl

end RpcWire
