import Rollout.Kdl.CharClass
import Rollout.Text.Hex

/-! Quoted and raw strings of KDL, on one line or on several. The text between the quotes is first
read into pieces; a string on several lines then loses the indentation of its closing quotes. -/

namespace Rollout.Kdl

/-- A piece of a string as it is written. -/
inductive Piece
  /-- A character that stands for itself. -/
  | plain (c : Char)
  /-- A character written as an escape, which counts neither as space nor as line end. -/
  | escaped (c : Char)
  | lineEnd
deriving DecidableEq

/-- What a backslash and one letter stand for. -/
def shortEscape? : Char → Option Char
  | '"' => some '"'
  | '\\' => some '\\'
  | 'b' => some '\x08'
  | 'f' => some '\x0c'
  | 'n' => some '\n'
  | 'r' => some '\r'
  | 't' => some '\t'
  | 's' => some ' '
  | _ => none

/-- One to six hexadecimal digits in braces, naming a character. -/
def codePoint? : List Char → Option (Char × List Char)
  | '{' :: rest => do
    let (ds, rest) := rest.span (· ≠ '}')
    if ds.isEmpty ∨ 6 < ds.length then none
    let values ← ds.mapM Text.hexValue?
    let n := values.foldl (fun n d => 16 * n + d) 0
    if h : n.isValidChar then some (Char.ofNatAux n h, rest.drop 1) else none
  | _ => none

/-- What follows a list of characters, if the text begins with them. -/
def after? : List Char → List Char → Option (List Char)
  | [], rest => some rest
  | _ :: _, [] => none
  | w :: ws, c :: rest => if w = c then after? ws rest else none

/-- What follows a line end. -/
def afterNewline? : List Char → Option (List Char)
  | '\r' :: '\n' :: rest => some rest
  | c :: rest => if isNewline c then some rest else none
  | [] => none

theorem length_afterNewline? {s rest : List Char} (h : afterNewline? s = some rest) :
    rest.length < s.length := by
  unfold afterNewline? at h
  split at h
  · cases h
    simp only [List.length_cons]
    omega
  · split at h
    · cases h
      exact Nat.lt_succ_self _
    · cases h
  · cases h

/-- The pieces up to the closing quotes, and what follows them. `escapes` says whether backslashes
are escapes; a backslash before white space makes all of it vanish. Each step uses up fuel and a
character. -/
def readPieces (closing : List Char) (escapes : Bool) :
    Nat → List Char → Option (List Piece × List Char)
  | 0, _ => none
  | fuel + 1, s =>
    match after? closing s with
    | some rest => some ([], rest)
    | none =>
      let next (piece : Piece) (rest : List Char) :=
        (readPieces closing escapes fuel rest).map fun (pieces, after) => (piece :: pieces, after)
      match s with
      | [] => none
      | '\\' :: rest =>
        if escapes then
          match rest with
          | [] => none
          | 'u' :: rest => do
            let (c, rest) ← codePoint? rest
            next (.escaped c) rest
          | c :: rest =>
            let blank (c : Char) : Bool := isSpace c || isNewline c
            if blank c then readPieces closing escapes fuel (rest.dropWhile blank)
            else (shortEscape? c).bind fun c => next (.escaped c) rest
        else next (.plain '\\') rest
      | c :: rest =>
        match afterNewline? (c :: rest) with
        | some rest => next .lineEnd rest
        | none => next (.plain c) rest

/-- The text of pieces without a line end. -/
def lineText? : List Piece → Option (List Char)
  | [] => some []
  | .plain c :: rest => (lineText? rest).map (c :: ·)
  | .escaped c :: rest => (lineText? rest).map (c :: ·)
  | .lineEnd :: _ => none

def lines : List Piece → List (List Piece)
  | [] => [[]]
  | .lineEnd :: rest => [] :: lines rest
  | piece :: rest =>
    match lines rest with
    | line :: others => (piece :: line) :: others
    | [] => [[piece]]

def isSpacePiece : Piece → Bool
  | .plain c => isSpace c
  | _ => false

/-- A line without its indentation. A line of spaces alone is an empty line, however it is indented.
-/
def unindent? (indentation line : List Piece) : Option (List Char) :=
  if line.all isSpacePiece then some []
  else if indentation.isPrefixOf line then lineText? (line.drop indentation.length)
  else none

/-- The text of a string on several lines. Nothing stands after the opening quotes, and only spaces
before the closing ones: these are the indentation that every line loses. -/
def indentedText? (pieces : List Piece) : Option (List Char) :=
  match lines pieces with
  | [] :: rest => do
    let indentation ← rest.getLast?
    if indentation.all isSpacePiece then
      let texts ← rest.dropLast.mapM (unindent? indentation)
      some (List.intercalate ['\n'] texts)
    else none
  | _ => none

/-- A string between the given quotes. -/
def readBetween (quotes : Nat) (hashes : Nat) (s : List Char) : Option (String × List Char) := do
  let closing := List.replicate quotes '"' ++ List.replicate hashes '#'
  let (pieces, rest) ← readPieces closing (hashes == 0) (s.length + 1) s
  let text ← if quotes = 1 then lineText? pieces else indentedText? pieces
  some (.ofList text, rest)

/-- A quoted or raw string. Three quotes always open a string on several lines. -/
def readQuoted (s : List Char) : Option (String × List Char) :=
  let (hashes, rest) := s.span (· = '#')
  match rest with
  | '"' :: '"' :: '"' :: rest => readBetween 3 hashes.length rest
  | '"' :: rest => readBetween 1 hashes.length rest
  | _ => none

end Rollout.Kdl
