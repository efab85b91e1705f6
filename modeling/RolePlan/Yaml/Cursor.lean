/-!
# Reading position

The characters still to be read, with the line and column where they start. Columns count
characters from zero; a carriage return and the line feed after it are one line end. The rules for
tokens and for written scalars speak of the classes of characters that come first.
-/

namespace RolePlan.Yaml

/-- A line ends with a line feed, a carriage return, or one of three Unicode line ends. -/
def isBreak (c : Char) : Bool :=
  c = '\n' || c = '\r' || c.toNat = 0x85 || c.toNat = 0x2028 || c.toNat = 0x2029

def isBlank (c : Char) : Bool := c = ' ' || c = '\t'

def isGap (c : Char) : Bool := isBlank c || isBreak c

def isWordChar (c : Char) : Bool :=
  ('0' ≤ c && c ≤ '9') || ('A' ≤ c && c ≤ 'Z') || ('a' ≤ c && c ≤ 'z') || c = '_' || c = '-'

def isFlowIndicator (c : Char) : Bool := ",[]\x7b\x7d".toList.contains c

def isAllowed (c : Char) : Bool :=
  let n := c.toNat
  n = 0x9 || n = 0xA || n = 0xD || (0x20 ≤ n && n ≤ 0x7E) || n = 0x85 ||
    (0xA0 ≤ n && n ≤ 0xD7FF) || (0xE000 ≤ n && n ≤ 0xFFFD) || 0x10000 ≤ n

/-- Characters that are written as they are. -/
def isPrintable (c : Char) : Bool :=
  let n := c.toNat
  n = 0xA || (0x20 ≤ n && n ≤ 0x7E) ||
    (0xA0 ≤ n && n ≠ 0xFEFF && n ≠ 0xFFFE && n ≠ 0xFFFF)

/-- The text of a line end inside a scalar: the two Unicode separators stay, all others become a
line feed. -/
def breakText (c : Char) : String :=
  if c.toNat = 0x2028 || c.toNat = 0x2029 then String.singleton c else "\n"

def hexValue? (c : Char) : Option Nat :=
  if '0' ≤ c && c ≤ '9' then some (c.toNat - '0'.toNat)
  else if 'a' ≤ c && c ≤ 'f' then some (c.toNat - 'a'.toNat + 10)
  else if 'A' ≤ c && c ≤ 'F' then some (c.toNat - 'A'.toNat + 10)
  else none

/-! ## Positions -/

structure Cursor where
  rest : List Char
  index : Nat
  line : Nat
  column : Nat

namespace Cursor

def start (text : List Char) : Cursor := ⟨text, 0, 0, 0⟩

def next (c : Cursor) : Cursor := ⟨c.rest.drop 1, c.index + 1, c.line, c.column + 1⟩

def skip (c : Cursor) (count : Nat) : Cursor :=
  ⟨c.rest.drop count, c.index + count, c.line, c.column + count⟩

def nextLine (c : Cursor) : Cursor :=
  match c.rest with
  | '\r' :: '\n' :: rest => ⟨rest, c.index + 2, c.line + 1, 0⟩
  | _ :: rest => ⟨rest, c.index + 1, c.line + 1, 0⟩
  | [] => c

def peek? (c : Cursor) : Option Char := c.rest.head?

def peekIs (c : Cursor) (test : Char → Bool) : Bool := c.rest.head?.any test

/-- The character `offset` places ahead is a blank or a line end, or the text ends before it. -/
def gapAt (c : Cursor) (offset : Nat) : Bool :=
  match c.rest.drop offset with
  | [] => true
  | ch :: _ => isGap ch

/-- The longest run of characters that pass the test, and the position after it. -/
def span (c : Cursor) (test : Char → Bool) : List Char × Cursor :=
  let (run, rest) := c.rest.span test
  (run, ⟨rest, c.index + run.length, c.line, c.column + run.length⟩)

def skipWhile (c : Cursor) (test : Char → Bool) : Cursor := (c.span test).2

/-- Three dashes at the beginning of a line, and then a gap. -/
def atDocumentStart (c : Cursor) : Bool :=
  c.column == 0 && c.rest.take 3 == ['-', '-', '-'] && c.gapAt 3

/-- Three points at the beginning of a line, and then a gap. -/
def atDocumentEnd (c : Cursor) : Bool :=
  c.column == 0 && c.rest.take 3 == ['.', '.', '.'] && c.gapAt 3

def atDocumentMark (c : Cursor) : Bool := c.atDocumentStart || c.atDocumentEnd

end Cursor

end RolePlan.Yaml
