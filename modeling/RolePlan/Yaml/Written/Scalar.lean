import RolePlan.Yaml.Scalar
import RolePlan.Yaml.Cursor

/-!
# Written scalars

How a text is written so that it reads back as itself: plain where that is possible, as an indented
block if it has line feeds, and between quotes otherwise.
-/

namespace RolePlan.Yaml.Written

inductive Style where
  | plain
  | single
  | double
  | literal
  deriving DecidableEq, Repr

/-- As a plain scalar the text would not be read as a text, or look like a padded number. -/
def isAmbiguous (text : String) : Bool :=
  Scalar.isPaddedDigits text.toList ||
    match Scalar.ofPlain text with
    | .ok (.string _) => false
    | _ => true

def isSpace (c : Char) : Bool := c = ' '

/-- Some character passes the first test, and the one after it the second. -/
def anyPair (first second : Char → Bool) : List Char → Bool
  | [] => false
  | [_] => false
  | a :: b :: rest => (first a && second b) || anyPair first second (b :: rest)

def isLeadingMark (c : Char) : Bool := "#,[]\x7b\x7d&*!|>'\"%@`".toList.contains c

def gapFollows (rest : List Char) : Bool := rest.head?.all isGap

/-- A colon before a gap or the end, or a comment mark behind a gap. -/
def hasInnerMark : List Char → Bool
  | [] => false
  | c :: rest =>
      (c = ':' && gapFollows rest) || (isGap c && rest.head? = some '#') || hasInnerMark rest

/-- The text holds marks that would end or change a plain scalar. -/
def hasMarks (text : List Char) : Bool :=
  match text with
  | [] => false
  | first :: rest =>
      text.take 3 = ['-', '-', '-'] || text.take 3 = ['.', '.', '.'] || isLeadingMark first ||
        ((first = '?' || first = '-') && gapFollows rest) || hasInnerMark text

def isPlain (text : List Char) : Bool :=
  text.all isPrintable && !text.any isBreak && !text.head?.any isSpace &&
    !text.getLast?.any isSpace && !hasMarks text

def isSingle (text : List Char) : Bool :=
  text.all isPrintable && !anyPair isSpace isBreak text && !anyPair isBreak isSpace text

def isLiteral (text : List Char) : Bool :=
  text.all isPrintable && !anyPair isSpace isBreak text && !text.getLast?.any isSpace

def styleOf (text : String) : Style :=
  let characters := text.toList
  if characters.contains '\n' then if isLiteral characters then .literal else .double
  else if !isAmbiguous text && isPlain characters then .plain
  else if isSingle characters then .single
  else .double

def spaces (count : Nat) : String := String.ofList (List.replicate count ' ')

/-- Between single quotes a quote is written twice. What follows a line end is indented. -/
def singleChars (indent : Nat) : Bool → List Char → List Char
  | fresh, [] => if fresh then List.replicate indent ' ' else []
  | fresh, c :: rest =>
      if isBreak c then c :: singleChars indent true rest
      else
        let margin := if fresh then List.replicate indent ' ' else []
        let written := if c = '\'' then ['\'', '\''] else [c]
        margin ++ (written ++ singleChars indent false rest)

def hexUpper (width n : Nat) : String :=
  let digits := (Nat.toDigits 16 n).map Char.toUpper
  String.ofList (List.replicate (width - digits.length) '0' ++ digits)

def escapeLetter? (c : Char) : Option Char :=
  match c.toNat with
  | 0x00 => some '0'
  | 0x07 => some 'a'
  | 0x08 => some 'b'
  | 0x09 => some 't'
  | 0x0A => some 'n'
  | 0x0B => some 'v'
  | 0x0C => some 'f'
  | 0x0D => some 'r'
  | 0x1B => some 'e'
  | 0x22 => some '"'
  | 0x5C => some '\\'
  | 0x85 => some 'N'
  | 0x2028 => some 'L'
  | 0x2029 => some 'P'
  | _ => none

def doubleChar (c : Char) : String :=
  match escapeLetter? c with
  | some letter => "\\".push letter
  | none =>
      if isPrintable c then String.singleton c
      else if c.toNat ≤ 0xFF then "\\x" ++ hexUpper 2 c.toNat
      else if c.toNat ≤ 0xFFFF then "\\u" ++ hexUpper 4 c.toNat
      else "\\U" ++ hexUpper 8 c.toNat

/-- The signs behind the mark of a block: the indentation, where the text does not show it, and
what becomes of the line ends behind it. -/
def literalHeader (text : List Char) : String :=
  let indentation := if text.head?.any fun c => isSpace c || isBreak c then "2" else ""
  let chomping := match text.reverse with
    | [] => "-"
    | [_] => if text.all isBreak then "+" else "-"
    | last :: before :: _ =>
        if !isBreak last then "-" else if isBreak before then "+" else ""
  "|" ++ indentation ++ chomping ++ "\n"

/-- The lines of a block; every line that is not empty is indented. -/
def literalChars (indent : Nat) : Bool → List Char → List Char
  | _, [] => []
  | fresh, c :: rest =>
      if isBreak c then c :: literalChars indent true rest
      else
        let margin := if fresh then List.replicate indent ' ' else []
        margin ++ c :: literalChars indent false rest

/-- A text as it is written where further lines are indented by `indent`. -/
def text (indent : Nat) (text : String) : String :=
  let characters := text.toList
  match styleOf text with
  | .plain => text
  | .single => "'" ++ String.ofList (singleChars indent false characters) ++ "'"
  | .double => "\"" ++ String.join (characters.map doubleChar) ++ "\""
  | .literal => literalHeader characters ++ String.ofList (literalChars indent true characters)

def endsFresh (text : String) : Bool :=
  styleOf text = .literal && text.toList.getLast?.any isBreak

end RolePlan.Yaml.Written
