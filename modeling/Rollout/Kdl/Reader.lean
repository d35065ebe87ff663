import Rollout.Kdl.Word
import Rollout.Kdl.QuotedText

/-! Reading KDL 2.0 documents. Readers take the characters that are left and give what they read
with the characters after it; there is one way to fail. Those for nodes and their blocks call each
other and take fuel, of which every step uses up some; there are at most four steps for a character.
-/

namespace Rollout.Kdl

/-! ### White space -/

/-- What follows a comment `/* … */`, in which comments may be nested, after its opening. -/
def afterComment? : Nat → List Char → Option (List Char)
  | _, [] => none
  | depth, '*' :: '/' :: rest => if depth = 0 then some rest else afterComment? (depth - 1) rest
  | depth, '/' :: '*' :: rest => afterComment? (depth + 1) rest
  | depth, _ :: rest => afterComment? depth rest

theorem length_afterComment? {depth : Nat} {s rest : List Char}
    (h : afterComment? depth s = some rest) : rest.length < s.length := by
  fun_induction afterComment? depth s with
  | case1 => cases h
  | case2 => cases h; simp only [List.length_cons]; omega
  | case3 _ _ _ ih => have := ih h; simp only [List.length_cons]; omega
  | case4 _ _ ih => have := ih h; simp only [List.length_cons]; omega
  | case5 _ _ _ _ _ ih => have := ih h; simp only [List.length_cons]; omega

/-- What follows a comment up to the end of the line, which is not part of it. -/
def afterLineComment (s : List Char) : List Char := s.dropWhile (!isNewline ·)

theorem length_afterLineComment (s : List Char) : (afterLineComment s).length ≤ s.length :=
  (List.dropWhile_sublist _).length_le

/-- Skips spaces and comments inside a line. -/
def skipSpaces (s : List Char) : List Char :=
  match s with
  | '/' :: '*' :: rest =>
    match _ : afterComment? 0 rest with
    | some after => skipSpaces after
    | none => s
  | c :: rest => if isSpace c then skipSpaces rest else s
  | [] => []
termination_by s.length
decreasing_by
  · have := length_afterComment? ‹_›
    simp only [List.length_cons]
    omega
  · simp

theorem length_skipSpaces (s : List Char) : (skipSpaces s).length ≤ s.length := by
  fun_induction skipSpaces s with
  | case1 _ _ h ih =>
    have := length_afterComment? h
    simp only [List.length_cons]
    omega
  | case2 => exact Nat.le_refl _
  | case3 _ _ _ _ ih => exact Nat.le_succ_of_le ih
  | case4 => exact Nat.le_refl _
  | case5 => exact Nat.le_refl _

/-- What follows a backslash that continues the line: the rest of its line is blank or a comment. -/
def afterContinuation? (s : List Char) : Option (List Char) :=
  match skipSpaces s with
  | [] => some []
  | '/' :: '/' :: rest =>
    let rest := afterLineComment rest
    some ((afterNewline? rest).getD rest)
  | rest => afterNewline? rest

theorem length_afterContinuation? {s rest : List Char} (h : afterContinuation? s = some rest) :
    rest.length ≤ s.length := by
  have hs := length_skipSpaces s
  unfold afterContinuation? at h
  split at h
  · cases h
    exact Nat.zero_le _
  · rename_i after heq
    obtain rfl := Option.some.inj h
    have hc := length_afterLineComment after
    rw [heq] at hs
    simp only [List.length_cons] at hs
    cases hn : afterNewline? (afterLineComment after) with
    | none => simp only [Option.getD_none]; omega
    | some _ => have := length_afterNewline? hn; simp only [Option.getD_some]; omega
  · have := length_afterNewline? h
    omega

/-- Skips what may separate the parts of a node: spaces, comments and continued line ends. -/
def skipNodeSpace (s : List Char) : List Char :=
  match _ : skipSpaces s with
  | '\\' :: rest =>
    match _ : afterContinuation? rest with
    | some after => skipNodeSpace after
    | none => '\\' :: rest
  | rest => rest
termination_by s.length
decreasing_by
  have hs := length_skipSpaces s
  have := length_afterContinuation? ‹_›
  rw [‹skipSpaces s = _›, List.length_cons] at hs
  omega

theorem length_skipNodeSpace (s : List Char) : (skipNodeSpace s).length ≤ s.length := by
  fun_induction skipNodeSpace s with
  | case1 s rest heq after h ih =>
    have hs := length_skipSpaces s
    have := length_afterContinuation? h
    rw [heq, List.length_cons] at hs
    omega
  | case2 s rest hs => exact hs ▸ length_skipSpaces s
  | case3 s => exact length_skipSpaces s

/-- Skips what may separate nodes: also line ends and comments up to the end of the line. -/
def skipLines (s : List Char) : List Char :=
  match _ : skipNodeSpace s with
  | '/' :: '/' :: rest => skipLines (afterLineComment rest)
  | rest =>
    match _ : afterNewline? rest with
    | some after => skipLines after
    | none => rest
termination_by s.length
decreasing_by
  · have hs := length_skipNodeSpace s
    have := length_afterLineComment rest
    rw [‹skipNodeSpace s = _›, List.length_cons, List.length_cons] at hs
    omega
  · have hs := length_skipNodeSpace s
    have := length_afterNewline? ‹_›
    rw [‹skipNodeSpace s = _›] at hs
    omega

/-- White space between the parts of a node starts here. -/
def startsNodeSpace : List Char → Bool
  | '/' :: '*' :: _ => true
  | '\\' :: _ => true
  | c :: _ => isSpace c
  | [] => false

/-! ### Values and entries -/

/-- A string in any of its forms. -/
def readString (s : List Char) : Option (String × List Char) :=
  match s with
  | '"' :: _ => readQuoted s
  | '#' :: _ => readQuoted s
  | _ =>
    let (word, rest) := s.span isWordChar
    (bareString? word).map fun text => (text, rest)

/-- A type annotation, of which nothing is kept, with the white space after it. -/
def skipAnnotation? (s : List Char) : Option (List Char) :=
  match s with
  | '(' :: rest => do
    let (_, rest) ← readString (skipNodeSpace rest)
    match skipNodeSpace rest with
    | ')' :: rest => some (skipNodeSpace rest)
    | _ => none
  | _ => some s

/-- A value without annotation. -/
def readScalar (s : List Char) : Option (Scalar × List Char) :=
  let text := (readString s).map fun (text, rest) => (Scalar.string text, rest)
  match s with
  | '"' :: _ => text
  | '#' :: rest =>
    match rest with
    | '"' :: _ => text
    | '#' :: _ => text
    | _ =>
      let (word, rest) := rest.span isWordChar
      (keyword? word).map fun value => (value, rest)
  | _ =>
    let (word, rest) := s.span isWordChar
    if startsNumber word then (number? word).map fun value => (value, rest) else text

/-- A value, possibly annotated. -/
def readValue (s : List Char) : Option (Scalar × List Char) := (skipAnnotation? s).bind readScalar

/-- An argument or a property. White space may stand around the equals sign of a property. -/
def readEntry (s : List Char) : Option (Entry × List Char) :=
  match s with
  | '(' :: _ => (readValue s).map fun (value, rest) => (⟨none, value⟩, rest)
  | _ => do
    let (value, rest) ← readScalar s
    match skipNodeSpace rest with
    | '=' :: after =>
      let name ← value.text?
      let (value, rest) ← readValue (skipNodeSpace after)
      some (⟨some name, value⟩, rest)
    | _ => some (⟨none, value⟩, rest)

/-! ### Nodes -/

/-- A node ends here: at the end of its line, of its block or of the text. -/
def endsNode : List Char → Bool
  | [] => true
  | '/' :: '/' :: _ => true
  | c :: _ => c = ';' || c = '}' || isNewline c

/-- What follows the end of a node. The brace that closes the block around it stays. -/
def afterNode? : List Char → Option (List Char)
  | [] => some []
  | '}' :: rest => some ('}' :: rest)
  | ';' :: rest => some rest
  | '/' :: '/' :: rest => some (afterLineComment rest)
  | rest => afterNewline? rest

/-- What a node has after its name. -/
structure Parts where
  entries : List Entry
  block : Option (List Node)

mutual

/-- Nodes up to the end of the text or a closing brace. A node that a slash and
a dash stand before is read and left out. -/
def readNodes : Nat → List Char → Option (List Node × List Char)
  | 0, _ => none
  | fuel + 1, s =>
    match skipLines s with
    | [] => some ([], [])
    | '}' :: rest => some ([], '}' :: rest)
    | '/' :: '-' :: rest => do
      let (_, rest) ← readNode fuel (skipLines rest)
      readNodes fuel (← afterNode? rest)
    | rest => do
      let (node, rest) ← readNode fuel rest
      let (nodes, rest) ← readNodes fuel (← afterNode? rest)
      some (node :: nodes, rest)

def readNode : Nat → List Char → Option (Node × List Char)
  | 0, _ => none
  | fuel + 1, s => do
    let (name, rest) ← readString (← skipAnnotation? s)
    let (parts, rest) ← readParts fuel true rest
    some (⟨name, parts.entries, parts.block⟩, rest)

/-- The entries and the block of a node. Entries need white space before them; once a block has
come, also one that is left out, no entry may follow. -/
def readParts : Nat → Bool → List Char → Option (Parts × List Char)
  | 0, _, _ => none
  | fuel + 1, entriesAllowed, s =>
    let rest := skipNodeSpace s
    let mayEnter := entriesAllowed && startsNodeSpace s
    match rest with
    | '{' :: rest => do
      let (nodes, rest) ← readBlock fuel rest
      let rest ← skipLeftOutBlocks fuel rest
      some (⟨[], some nodes⟩, rest)
    | '/' :: '-' :: rest =>
      match skipLines rest with
      | '{' :: rest => do
        let (_, rest) ← readBlock fuel rest
        readParts fuel false rest
      | rest =>
        if mayEnter then do
          let (_, rest) ← readEntry rest
          readParts fuel true rest
        else none
    | rest =>
      if endsNode rest then some (⟨[], none⟩, rest)
      else if mayEnter then do
        let (entry, rest) ← readEntry rest
        let (parts, rest) ← readParts fuel true rest
        some ({ parts with entries := entry :: parts.entries }, rest)
      else none

/-- Skips blocks left out after the block of a node. -/
def skipLeftOutBlocks : Nat → List Char → Option (List Char)
  | 0, _ => none
  | fuel + 1, s =>
    match skipNodeSpace s with
    | '/' :: '-' :: rest =>
      match skipLines rest with
      | '{' :: rest => do
        let (_, rest) ← readBlock fuel rest
        skipLeftOutBlocks fuel rest
      | _ => none
    | rest => some rest

/-- A block after its opening brace. -/
def readBlock : Nat → List Char → Option (List Node × List Char)
  | 0, _ => none
  | fuel + 1, s => do
    let (nodes, rest) ← readNodes fuel s
    match rest with
    | '}' :: rest => some (nodes, rest)
    | _ => none

end

/-- Reads a whole text. A byte order mark may stand before it. -/
def Document.parse? (text : String) : Option Document :=
  let s := match text.toList with
    | '\ufeff' :: rest => rest
    | rest => rest
  if s.any isDisallowed then none
  else
    match readNodes (4 * s.length + 4) s with
    | some (nodes, []) => some nodes
    | _ => none

end Rollout.Kdl
