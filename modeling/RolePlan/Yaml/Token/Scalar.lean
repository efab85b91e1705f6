import RolePlan.Yaml.Cursor

/-!
# Scalars as they stand in a document

Three ways to write a scalar: plain, between quotes, and as an indented block. Each reader returns
the text with its line ends folded and the position behind it. All of them take an upper bound for
the number of their steps, which the length of the document supplies.
-/

namespace RolePlan.Yaml.Token

/-- What lies between two pieces of a scalar: the blanks, if it stays on its line, and otherwise
the line ends, the first apart from the others. -/
structure Gap where
  blanks : String := ""
  broken : Bool := false
  firstBreak : String := ""
  moreBreaks : String := ""

/-- One line feed becomes a blank, of several the first is dropped. -/
def Gap.text (gap : Gap) : String :=
  if gap.broken then
    if gap.firstBreak = "\n" then (if gap.moreBreaks.isEmpty then " " else gap.moreBreaks)
    else gap.firstBreak ++ gap.moreBreaks
  else gap.blanks

/-- Reads blanks and line ends. After a line end no tab may stand left of `indent`. -/
def gapFuel (indent : Nat) : Nat → Gap → Cursor → Except String (Gap × Cursor)
  | 0, gap, c => .ok (gap, c)
  | fuel + 1, gap, c =>
      match c.peek? with
      | none => .ok (gap, c)
      | some ch =>
          if isBlank ch then
            if gap.broken then
              if ch = '\t' && c.column < indent then
                .error "found a tab character that violates indentation"
              else gapFuel indent fuel gap c.next
            else gapFuel indent fuel { gap with blanks := gap.blanks.push ch } c.next
          else if isBreak ch then
            let gap :=
              if gap.broken then { gap with moreBreaks := gap.moreBreaks ++ breakText ch }
              else { blanks := "", broken := true, firstBreak := breakText ch, moreBreaks := "" }
            gapFuel indent fuel gap c.nextLine
          else .ok (gap, c)

/-- The characters up to the next gap or the mark that ends a plain scalar, the latest first. -/
def plainWord (inFlow : Bool) : List Char → List Char → Except String (List Char)
  | word, [] => .ok word
  | word, ch :: rest =>
      let next := rest.head?
      if isGap ch then .ok word
      else if inFlow && ch = ':' && next.any (fun c => isFlowIndicator c || c = '?') then
        .error "found unexpected ':'"
      else if ch = ':' && next.all isGap then .ok word
      else if inFlow && isFlowIndicator ch then .ok word
      else plainWord inFlow (ch :: word) rest

/-- Continues a plain scalar after `text` and `gap`. The last component tells whether the scalar
ended behind a line end. -/
def plainFuel (inFlow : Bool) (indent limit : Nat) :
    Nat → String → Gap → Cursor → Except String (String × Bool × Cursor)
  | 0, text, gap, c => .ok (text, gap.broken, c)
  | fuel + 1, text, gap, c =>
      if c.atDocumentMark || c.peek? = some '#' then .ok (text, gap.broken, c)
      else do
        let word ← plainWord inFlow [] c.rest
        if word.isEmpty then return (text, gap.broken, c)
        let text := text ++ gap.text ++ String.ofList word.reverse
        let c := c.skip word.length
        if !c.peekIs isGap then return (text, false, c)
        let (gap, c) ← gapFuel indent limit {} c
        if !inFlow && c.column < indent then return (text, gap.broken, c)
        plainFuel inFlow indent limit fuel text gap c

/-- A scalar without marks around it. It ends before a comment, a key mark or, outside flow
collections, a line that is indented less than `indent`. -/
def plain (inFlow : Bool) (indent limit : Nat) (c : Cursor) :
    Except String (String × Bool × Cursor) :=
  plainFuel inFlow indent limit limit "" {} c

def escapeChar? : Char → Option Char
  | '0' => some (Char.ofNat 0)
  | 'a' => some (Char.ofNat 7)
  | 'b' => some (Char.ofNat 8)
  | 't' => some '\t'
  | '\t' => some '\t'
  | 'n' => some '\n'
  | 'v' => some (Char.ofNat 11)
  | 'f' => some (Char.ofNat 12)
  | 'r' => some '\r'
  | 'e' => some (Char.ofNat 27)
  | ' ' => some ' '
  | '"' => some '"'
  | '/' => some '/'
  | '\\' => some '\\'
  | 'N' => some (Char.ofNat 0x85)
  | '_' => some (Char.ofNat 0xA0)
  | 'L' => some (Char.ofNat 0x2028)
  | 'P' => some (Char.ofNat 0x2029)
  | _ => none

def escapeLength? : Char → Option Nat
  | 'x' => some 2
  | 'u' => some 4
  | 'U' => some 8
  | _ => none

def isCodePoint (n : Nat) : Bool := n < 0xD800 || (0xDFFF < n && n ≤ 0x10FFFF)

def hexNumber? (digits : List Char) : Option Nat :=
  digits.foldlM (fun n d => (hexValue? d).map (16 * n + ·)) 0

def escape (c : Cursor) : Except String (Char × Cursor) :=
  match c.peek? with
  | none => .error "found unknown escape character"
  | some mark =>
      match escapeChar? mark with
      | some ch => .ok (ch, c.next)
      | none =>
          match escapeLength? mark with
          | none => .error "found unknown escape character"
          | some length =>
              let digits := c.next.rest.take length
              match hexNumber? digits with
              | none => .error "did not find expected hexadecimal number"
              | some n =>
                  if digits.length < length then
                    .error "did not find expected hexadecimal number"
                  else if isCodePoint n then .ok (Char.ofNat n, c.skip (length + 1))
                  else .error "found invalid Unicode character escape code"

/-- Reads a quoted scalar up to a gap or the closing quote. The flag tells that an escaped line end
was passed. -/
def quotedWordFuel (quote : Char) :
    Nat → String → Cursor → Except String (String × Bool × Cursor)
  | 0, text, c => .ok (text, false, c)
  | fuel + 1, text, c =>
      match c.rest with
      | [] => .ok (text, false, c)
      | ch :: rest =>
          if isGap ch then .ok (text, false, c)
          else if quote = '\'' && ch = '\'' && rest.head? = some '\'' then
            quotedWordFuel quote fuel (text.push '\'') (c.skip 2)
          else if ch = quote then .ok (text, false, c)
          else if quote = '"' && ch = '\\' then
            if rest.head?.any isBreak then .ok (text, true, c.next.nextLine)
            else do
              let (escaped, c) ← escape c.next
              quotedWordFuel quote fuel (text.push escaped) c
          else quotedWordFuel quote fuel (text.push ch) c.next

def quotedFuel (quote : Char) (limit : Nat) :
    Nat → String → Cursor → Except String (String × Cursor)
  | 0, _, _ => .error "found unexpected end of stream"
  | fuel + 1, text, c =>
      if c.atDocumentMark then .error "found unexpected document indicator"
      else if c.rest.isEmpty then .error "found unexpected end of stream"
      else do
        let (text, broken, c) ← quotedWordFuel quote limit text c
        if c.peek? = some quote then return (text, c.next)
        let (gap, c) ← gapFuel 0 limit { broken } c
        quotedFuel quote limit fuel (text ++ gap.text) c

/-- A scalar between two quotes; the position is at the opening one. -/
def quoted (quote : Char) (limit : Nat) (c : Cursor) : Except String (String × Cursor) :=
  quotedFuel quote limit limit "" c.next

/-- What becomes of the line ends behind a block scalar. -/
inductive Chomping where
  | strip
  | clip
  | keep
  deriving DecidableEq

def chomping? : Option Char → Option Chomping
  | some '+' => some .keep
  | some '-' => some .strip
  | _ => none

def indentDigit? : Option Char → Option Nat
  | some ch => if '0' ≤ ch && ch ≤ '9' then some (ch.toNat - '0'.toNat) else none
  | none => none

/-- The signs behind the mark of a block scalar, in either order: how to chomp, and by how much the
block is indented. -/
def blockHeader (c : Cursor) : Except String (Chomping × Option Nat × Cursor) := do
  let digit (c : Cursor) : Except String (Option Nat × Cursor) :=
    match indentDigit? c.peek? with
    | none => .ok (none, c)
    | some 0 => .error "found an indentation indicator equal to 0"
    | some n => .ok (some n, c.next)
  match chomping? c.peek? with
  | some chomping =>
      let (increment, c) ← digit c.next
      return (chomping, increment, c)
  | none =>
      let (increment, c) ← digit c
      match increment, chomping? c.peek? with
      | some _, some chomping => return (chomping, increment, c.next)
      | _, _ => return (.clip, increment, c)

/-- Reads indentation and empty lines. With no known indentation all blanks belong to it; the
greatest column reached is returned. -/
def blockBreaksFuel (indent : Option Nat) :
    Nat → Nat → String → Cursor → Except String (Nat × String × Cursor)
  | 0, widest, breaks, c => .ok (widest, breaks, c)
  | fuel + 1, widest, breaks, c =>
      let inside (column : Nat) : Bool := indent.all (column < ·)
      let available := (c.rest.takeWhile (· = ' ')).length
      let c := c.skip (match indent with
        | none => available
        | some n => min available (n - c.column))
      let widest := max widest c.column
      match c.peek? with
      | none => .ok (widest, breaks, c)
      | some ch =>
          if ch = '\t' && inside c.column then
            .error "found a tab character where an indentation space is expected"
          else if isBreak ch then
            blockBreaksFuel indent fuel widest (breaks ++ breakText ch) c.nextLine
          else .ok (widest, breaks, c)

structure Block where
  text : String
  /-- The end of the last line. -/
  lineEnd : String
  /-- The ends of the empty lines after it. -/
  emptyLines : String
  /-- The last line starts with a blank. -/
  indented : Bool

/-- What joins the block and its next line: in a folded block a single line feed between two lines
that start with no blank becomes a blank. -/
def Block.joint (folded nextIndented : Bool) (block : Block) : String :=
  if folded && block.lineEnd = "\n" && !block.indented && !nextIndented then
    if block.emptyLines.isEmpty then " " else block.emptyLines
  else block.lineEnd ++ block.emptyLines

def blockLinesFuel (folded : Bool) (indent limit : Nat) :
    Nat → Block → Cursor → Except String (Block × Cursor)
  | 0, block, c => .ok (block, c)
  | fuel + 1, block, c =>
      if c.column ≠ indent || c.rest.isEmpty then .ok (block, c)
      else do
        let indented := c.peekIs isBlank
        let (line, c) := c.span (!isBreak ·)
        let text := block.text ++ block.joint folded indented ++ String.ofList line
        let lineEnd := match c.peek? with
          | none => ""
          | some ch => breakText ch
        let (_, emptyLines, c) ← blockBreaksFuel (some indent) limit 0 "" c.nextLine
        blockLinesFuel folded indent limit fuel ⟨text, lineEnd, emptyLines, indented⟩ c

/-- An indented block; the position is at its mark. The least indentation is `least`, a stated one
is counted from `base`. -/
def block (folded : Bool) (base least limit : Nat) (c : Cursor) :
    Except String (String × Cursor) := do
  let (chomping, increment, c) ← blockHeader c.next
  let c := c.skipWhile isBlank
  let c := if c.peek? = some '#' then c.skipWhile (!isBreak ·) else c
  if !c.peekIs isBreak && !c.rest.isEmpty then
    throw "did not find expected comment or line break"
  let (widest, breaks, c) ← blockBreaksFuel (increment.map (base + ·)) limit 0 "" c.nextLine
  let indent := match increment with
    | some n => base + n
    | none => max widest (max least 1)
  let (block, c) ← blockLinesFuel folded indent limit limit ⟨"", "", breaks, false⟩ c
  let text := match chomping with
    | .strip => block.text
    | .clip => block.text ++ block.lineEnd
    | .keep => block.text ++ block.lineEnd ++ block.emptyLines
  return (text, c)

end RolePlan.Yaml.Token
