/-!
# Characters and strings of a TOML document

Strings in double quotes have escapes, those in single quotes have none. Three quotes enclose a
string of several lines; up to two more quotes may stand before the closing ones.
-/

namespace RolePlan.Toml

inductive Fault where
  | unfinished
  | unexpected (found : Char)
  | noScalar (text : String)
  | noCharacter (digits : String)
  | repeated (key : String)
  | closed (key : String)
  | tooDeep
  deriving DecidableEq, Repr

def Fault.message : Fault → String
  | .unfinished => "the text ends too early"
  | .unexpected found => "unexpected character '" ++ String.singleton found ++ "'"
  | .noScalar text => "no value can be written as '" ++ text ++ "'"
  | .noCharacter digits => "no character has the number " ++ digits
  | .repeated key => "the key '" ++ key ++ "' is given twice"
  | .closed key => "nothing can be added to '" ++ key ++ "'"
  | .tooDeep => "too many nested values"

/-! ## Characters -/

def isBlank (c : Char) : Bool := c = ' ' || c = '\t'

/-- Characters that may stand in comments and strings: all but the control characters; of those
the tab alone. -/
def isPrinting (c : Char) : Bool := c = '\t' || (' ' ≤ c && c ≠ Char.ofNat 127)

def isBare (c : Char) : Bool := c.isAlphanum || c = '_' || c = '-'

def isScalar (c : Char) : Bool := isBare c || c = '+' || c = '.' || c = ':'

def digit? (c : Char) : Option Nat :=
  if '0' ≤ c && c ≤ '9' then some (c.toNat - '0'.toNat)
  else if 'a' ≤ c && c ≤ 'f' then some (c.toNat - 'a'.toNat + 10)
  else if 'A' ≤ c && c ≤ 'F' then some (c.toNat - 'A'.toNat + 10)
  else none

/-- Digits of a number to the given base, which is at most sixteen. -/
def isDigit (base : Nat) (c : Char) : Bool := (digit? c).any (· < base)

def ofDigits (base : Nat) (digits : List Char) : Nat :=
  digits.foldl (fun n c => base * n + (digit? c).getD 0) 0

/-! ## Strings -/

def codePoint (digits : List Char) : Except Fault Char :=
  let n := ofDigits 16 digits
  if digits.all (isDigit 16) && n.isValidChar then .ok (Char.ofNat n)
  else .error (.noCharacter (String.ofList digits))

def escaped (c : Char) : Except Fault Char :=
  match c with
  | 'b' => .ok '\x08'
  | 't' => .ok '\t'
  | 'n' => .ok '\n'
  | 'f' => .ok '\x0c'
  | 'r' => .ok '\r'
  | 'e' => .ok '\x1b'
  | '"' => .ok '"'
  | '\\' => .ok '\\'
  | other => .error (.unexpected other)

/-- A text with the characters `read` in reverse, and what follows it. -/
def finish (read rest : List Char) : Except Fault (String × List Char) :=
  .ok (String.ofList read.reverse, rest)

/-- Three closing quotes have been passed; those after them belong to the text, if at most two. -/
def finishLines (quote : Char) (read rest : List Char) : Except Fault (String × List Char) :=
  let more := (rest.take 2).takeWhile (· = quote)
  finish (more ++ read) (rest.drop more.length)

def literal (read : List Char) : List Char → Except Fault (String × List Char)
  | [] => .error .unfinished
  | '\'' :: rest => finish read rest
  | c :: rest => if isPrinting c then literal (c :: read) rest else .error (.unexpected c)

def literalLines (read : List Char) : List Char → Except Fault (String × List Char)
  | [] => .error .unfinished
  | '\'' :: '\'' :: '\'' :: rest => finishLines '\'' read rest
  | '\r' :: '\n' :: rest => literalLines ('\n' :: '\r' :: read) rest
  | c :: rest =>
      if isPrinting c || c = '\n' then literalLines (c :: read) rest else .error (.unexpected c)

def basic (read : List Char) : List Char → Except Fault (String × List Char)
  | [] => .error .unfinished
  | '"' :: rest => finish read rest
  | '\\' :: 'x' :: a :: b :: rest => do basic ((← codePoint [a, b]) :: read) rest
  | '\\' :: 'u' :: a :: b :: c :: d :: rest => do
      basic ((← codePoint [a, b, c, d]) :: read) rest
  | '\\' :: 'U' :: a :: b :: c :: d :: e :: f :: g :: h :: rest => do
      basic ((← codePoint [a, b, c, d, e, f, g, h]) :: read) rest
  | '\\' :: c :: rest => do basic ((← escaped c) :: read) rest
  | c :: rest => if isPrinting c then basic (c :: read) rest else .error (.unexpected c)

/-- A backslash here stands before the end of the line. -/
def endsLine (rest : List Char) : Bool :=
  match rest.dropWhile isBlank with
  | '\n' :: _ => true
  | '\r' :: '\n' :: _ => true
  | _ => false

/-- Reads a text in three double quotes to its end. In a `gap`, which a backslash at the end of a
line opens, blanks and line ends are passed over. -/
def basicLines (gap : Bool) (read : List Char) : List Char → Except Fault (String × List Char)
  | [] => .error .unfinished
  | '"' :: '"' :: '"' :: rest => finishLines '"' read rest
  | '\\' :: 'x' :: a :: b :: rest => do basicLines false ((← codePoint [a, b]) :: read) rest
  | '\\' :: 'u' :: a :: b :: c :: d :: rest => do
      basicLines false ((← codePoint [a, b, c, d]) :: read) rest
  | '\\' :: 'U' :: a :: b :: c :: d :: e :: f :: g :: h :: rest => do
      basicLines false ((← codePoint [a, b, c, d, e, f, g, h]) :: read) rest
  | '\\' :: c :: rest =>
      if endsLine (c :: rest) then basicLines true read (c :: rest)
      else do basicLines false ((← escaped c) :: read) rest
  | '\r' :: '\n' :: rest =>
      basicLines gap (if gap then read else '\n' :: '\r' :: read) rest
  | c :: rest =>
      if gap && (isBlank c || c = '\n') then basicLines true read rest
      else if isPrinting c || c = '\n' then basicLines false (c :: read) rest
      else .error (.unexpected c)

/-- The first line end of a text of several lines does not belong to it. -/
def dropLineEnd : List Char → List Char
  | '\n' :: rest => rest
  | '\r' :: '\n' :: rest => rest
  | rest => rest

end RolePlan.Toml
