import RpcWire.Bytes

namespace RpcWire

/-! # Paths in a file tree

A path is read at a place: the current directory, together with the directories
that lead to it. What is found in the end is all that a reader of files learns. -/

/-- What a path names. -/
inductive Entry where
  | missing
  | directory
  | file (content : Bytes)
deriving DecidableEq

inductive FileTree where
  | file (content : Bytes)
  | directory (entries : List (Bytes × FileTree))

abbrev Directory := List (Bytes × FileTree)

def FileTree.entry : FileTree → Entry
  | file content => .file content
  | directory _ => .directory

/-! ## Components -/

/-- The parts of a path between its slashes. There is one more of them than
there are slashes, and any of them may be empty. -/
def components : Bytes → List Bytes
  | [] => [[]]
  | byte :: rest =>
      if byte = 0x2f then
        [] :: components rest
      else
        match components rest with
        | [] => [[byte]]
        | first :: others => (byte :: first) :: others

example : components (ascii "a//bc") = [ascii "a", [], ascii "bc"] := rfl
example : components (ascii "/") = [[], []] := rfl

/-! ## Following a path -/

/-- What has been reached and the directories above it, the nearest first. -/
structure Place where
  here : FileTree
  above : List Directory := []

namespace Place

def root (place : Place) : Place :=
  match place.above.getLast? with
  | some outermost => { here := .directory outermost }
  | none => place

/-- Only a directory can be gone on from, even by a component that stays. The
root is above itself. -/
def step (place : Place) (component : Bytes) : Option Place :=
  match place.here with
  | .file _ => none
  | .directory entries =>
      if component = [] ∨ component = ascii "." then some place
      else if component = ascii ".." then
        match place.above with
        | [] => some place
        | parent :: above => some { here := .directory parent, above }
      else
        (entries.lookup component).map fun found =>
          { here := found, above := entries :: place.above }

/-- A path that begins with a slash starts at the root. -/
def follow (place : Place) (path : Bytes) : Option Place :=
  (components path).foldlM step (if path.head? = some 0x2f then place.root else place)

/-- Paths of this length or more name nothing. -/
def tooLong : Nat := 4096

/-- What a path names when it is read at this place. The empty path names
nothing, not even the place itself. -/
def entry (place : Place) (path : Bytes) : Entry :=
  if path = [] ∨ tooLong ≤ path.length then .missing
  else
    match place.follow path with
    | none => .missing
    | some found => found.here.entry

end Place

/-! ## Trees from lists of files -/

namespace Directory

/-- Store a file, with the directories on the way to it. It takes the place of
whatever had its name. -/
def put (content : Bytes) : List Bytes → Directory → Directory
  | [], entries => entries
  | [name], entries => (name, .file content) :: entries
  | name :: next :: rest, entries =>
      let inner := match entries.lookup name with
        | some (.directory inner) => inner
        | _ => []
      (name, .directory (put content (next :: rest) inner)) :: entries

def ofFiles (files : List (Bytes × Bytes)) : Directory :=
  files.foldl (fun entries (path, content) => put content (components path) entries) []

/-- A root with two files, one of them in a directory of its own. -/
def sample : Place where
  here := .directory (ofFiles [(ascii "a", [1]), (ascii "d/b", [2])])

example : sample.entry (ascii "a") = .file [1] := rfl
example : sample.entry (ascii "../d/.././/d/b") = .file [2] := rfl
example : sample.entry (ascii "/d") = .directory := rfl
example : sample.entry (ascii "..") = .directory := rfl
example : sample.entry (ascii "b") = .missing := rfl
example : sample.entry (ascii "a/.") = .missing := rfl
example : sample.entry [] = .missing := rfl

end Directory

end RpcWire
