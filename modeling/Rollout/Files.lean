import Rollout.Text.Cut

/-! Reading text files, and a working directory as a value. -/

namespace Rollout

/-- Why a file could not be read as text. -/
inductive ReadError
  | noSuchFile
  | notADirectory
  | isADirectory
  | nameTooLong
  | nulInPath
  | invalidUtf8
  | other (message : String)
deriving DecidableEq

def ReadError.message : ReadError → String
  | .noSuchFile => "No such file or directory (os error 2)"
  | .notADirectory => "Not a directory (os error 20)"
  | .isADirectory => "Is a directory (os error 21)"
  | .nameTooLong => "File name too long (os error 36)"
  | .nulInPath => "file name contained an unexpected NUL byte"
  | .invalidUtf8 => "stream did not contain valid UTF-8"
  | .other message => message

inductive FileEntry
  | file (bytes : ByteArray)
  | directory

/-- What lies below a working directory, by relative path. The directories on the way to an entry
exist with it. -/
structure WorkingDirectory where
  entries : List (List String × FileEntry)

namespace WorkingDirectory

/-- The parts of a path between its slashes. -/
def components (path : String) : List String := (Text.parts '/' path.toList).map String.ofList

def ofList (entries : List (String × FileEntry)) : WorkingDirectory :=
  ⟨entries.map fun (path, entry) => (components path, entry)⟩

/-- What a path from the working directory leads to, along existing directories. -/
inductive Place
  | inside (path : List String) (entry : FileEntry)
  /-- Above the working directory, of which nothing is known. -/
  | outside

def entry? (d : WorkingDirectory) (path : List String) : Option FileEntry :=
  if path.isEmpty then some .directory
  else
    match d.entries.find? (·.1 = path) with
    | some (_, entry) => some entry
    | none => if d.entries.any fun e => path.isPrefixOf e.1 then some .directory else none

def longestName : Nat := 255

/-- Follows one part of a path. -/
def step (d : WorkingDirectory) (place : Place) (name : String) : Except ReadError Place :=
  match place with
  | .inside _ (.file _) => .error .notADirectory
  | .inside path .directory =>
    if name = "" ∨ name = "." then .ok place
    else if name = ".." then
      if path.isEmpty then .ok .outside else .ok (.inside path.dropLast .directory)
    else if longestName < name.utf8ByteSize then .error .nameTooLong
    else
      match d.entry? (path ++ [name]) with
      | some entry => .ok (.inside (path ++ [name]) entry)
      | none => .error .noSuchFile
  | .outside =>
    if name = "" ∨ name = "." ∨ name = ".." then .ok .outside else .error .noSuchFile

def longestPath : Nat := 4095

/-- The bytes of the file at a path. -/
def read (d : WorkingDirectory) (path : String) : Except ReadError ByteArray :=
  if path.toList.contains '\x00' then .error .nulInPath
  else if path = "" then .error .noSuchFile
  else if longestPath < path.utf8ByteSize then .error .nameTooLong
  else do
    let start := if path.toList.head? = some '/' then .outside else .inside [] .directory
    match ← (components path).foldlM d.step start with
    | .inside _ (.file bytes) => .ok bytes
    | _ => .error .isADirectory

/-- The text of the file at a path. -/
def readText (d : WorkingDirectory) (path : String) : Except ReadError String := do
  match String.fromUTF8? (← d.read path) with
  | some text => .ok text
  | none => .error .invalidUtf8

end WorkingDirectory

end Rollout
