/-! The character classes of KDL. -/

namespace Rollout.Kdl

/-- Ends a line by itself. A carriage return and a line feed together are one line end. -/
def isNewline (c : Char) : Bool :=
  c = '\n' ∨ c = '\r' ∨ c = '\x0b' ∨ c = '\x0c' ∨ c = '\u0085' ∨ c = '\u2028' ∨ c = '\u2029'

def isSpace (c : Char) : Bool :=
  c = ' ' ∨ c = '\t' ∨ c = '\u00a0' ∨ c = '\u1680' ∨ ('\u2000' ≤ c ∧ c ≤ '\u200a') ∨
    c = '\u202f' ∨ c = '\u205f' ∨ c = '\u3000'

/-- May stand nowhere in a document, not even in a string or a comment: control characters, marks
that change the writing direction, and the byte order mark. -/
def isDisallowed (c : Char) : Bool :=
  c.toNat ≤ 0x08 ∨ (0x0e ≤ c.toNat ∧ c.toNat ≤ 0x1f) ∨ c = '\u200e' ∨ c = '\u200f' ∨
    ('\u202a' ≤ c ∧ c ≤ '\u202e') ∨ ('\u2066' ≤ c ∧ c ≤ '\u2069') ∨ c = '\ufeff'

/-- Has a meaning of its own outside of strings. -/
def isReserved (c : Char) : Bool :=
  c = '\\' ∨ c = '/' ∨ c = '(' ∨ c = ')' ∨ c = '{' ∨ c = '}' ∨ c = ';' ∨ c = '[' ∨ c = ']' ∨
    c = '"' ∨ c = '#' ∨ c = '='

/-- May stand in a word: an identifier, a number or the name of a keyword. -/
def isWordChar (c : Char) : Bool :=
  !(isReserved c || isSpace c || isNewline c || isDisallowed c)

end Rollout.Kdl
