import RolePlan.Toml.Scalar
import RolePlan.Toml.Text

/-!
# Reading a TOML document

`read` gives the table that a text stands for. The text is a sequence of lines, each a header or a
key with a value; values nest at most eighty deep.
-/

namespace RolePlan.Toml

def skipFiller (inComment : Bool) : List Char → Except Fault (List Char)
  | [] => .ok []
  | '\r' :: '\n' :: rest => skipFiller false rest
  | c :: rest =>
      if c = '\n' then skipFiller false rest
      else if inComment then
        if isPrinting c then skipFiller true rest else .error (.unexpected c)
      else if isBlank c then skipFiller false rest
      else if c = '#' then skipFiller true rest
      else .ok (c :: rest)

def skipLineEnd (inComment : Bool) : List Char → Except Fault (List Char)
  | [] => .ok []
  | '\r' :: '\n' :: rest => .ok rest
  | c :: rest =>
      if c = '\n' then .ok rest
      else if inComment then
        if isPrinting c then skipLineEnd true rest else .error (.unexpected c)
      else if isBlank c then skipLineEnd false rest
      else if c = '#' then skipLineEnd true rest
      else .error (.unexpected c)

def skipBlanks (text : List Char) : List Char := text.dropWhile isBlank

def expect (expected : Char) : List Char → Except Fault (List Char)
  | [] => .error .unfinished
  | c :: rest => if c = expected then .ok rest else .error (.unexpected c)

def keyPart : List Char → Except Fault (String × List Char)
  | [] => .error .unfinished
  | '"' :: rest => basic [] rest
  | '\'' :: rest => literal [] rest
  | c :: rest =>
      if isBare c then
        .ok (String.ofList ((c :: rest).takeWhile isBare), (c :: rest).dropWhile isBare)
      else .error (.unexpected c)

def moreKeyParts : Nat → List Char → Except Fault (List String × List Char)
  | 0, text => .ok ([], text)
  | fuel + 1, text =>
      match skipBlanks text with
      | '.' :: rest => do
          let (part, rest) ← keyPart (skipBlanks rest)
          let (parts, rest) ← moreKeyParts fuel rest
          return (part :: parts, rest)
      | rest => .ok ([], rest)

/-- A key: the path before its last part, and the last part. The blanks around it are passed. -/
def key (text : List Char) : Except Fault ((List String × String) × List Char) := do
  let (first, rest) ← keyPart (skipBlanks text)
  let (more, rest) ← moreKeyParts rest.length rest
  return (Node.splitLast first more, rest)

/-- A run of characters; a date and the time after it are one run even with a blank between. -/
def scalarRun (text : List Char) : List Char × List Char :=
  let run := text.takeWhile isScalar
  match text.dropWhile isScalar with
  | ' ' :: c :: rest =>
      if (date? run).any (·.2.isEmpty) && isDigit 10 c then
        (run ++ ' ' :: (c :: rest).takeWhile isScalar, (c :: rest).dropWhile isScalar)
      else (run, ' ' :: c :: rest)
  | rest => (run, rest)

def greatestDepth : Nat := 80

mutual

def value : Nat → Nat → List Char → Except Fault (Node × List Char)
  | 0, _, _ => .error .unfinished
  | fuel + 1, depth, text =>
      match text with
      | '"' :: '"' :: '"' :: rest => do
          let (text, rest) ← basicLines false [] (dropLineEnd rest)
          return (.string text, rest)
      | '"' :: rest => do
          let (text, rest) ← basic [] rest
          return (.string text, rest)
      | '\'' :: '\'' :: '\'' :: rest => do
          let (text, rest) ← literalLines [] (dropLineEnd rest)
          return (.string text, rest)
      | '\'' :: rest => do
          let (text, rest) ← literal [] rest
          return (.string text, rest)
      | '[' :: rest => if depth = 0 then .error .tooDeep else items fuel (depth - 1) [] rest
      | '\x7b' :: rest => if depth = 0 then .error .tooDeep else pairs fuel (depth - 1) .empty rest
      | _ => do
          let (run, rest) := scalarRun text
          return (← scalar run, rest)

/-- The items of a list up to its end; `done` holds those passed, the latest first. -/
def items : Nat → Nat → List Node → List Char → Except Fault (Node × List Char)
  | 0, _, _, _ => .error .unfinished
  | fuel + 1, depth, done, text => do
      match ← skipFiller false text with
      | ']' :: rest => return (.array false done.reverse, rest)
      | text =>
          let (item, rest) ← value fuel depth text
          match ← skipFiller false rest with
          | ',' :: rest => items fuel depth (item :: done) rest
          | rest => return (.array false (item :: done).reverse, ← expect ']' rest)

def pairs : Nat → Nat → Table Node → List Char → Except Fault (Node × List Char)
  | 0, _, _, _ => .error .unfinished
  | fuel + 1, depth, done, text => do
      match ← skipFiller false text with
      | '\x7d' :: rest => return (.table .braced done, rest)
      | text =>
          let ((path, name), rest) ← key text
          let (item, rest) ← value fuel depth (skipBlanks (← expect '=' rest))
          let done ← Node.set path name item done
          match ← skipFiller false rest with
          | ',' :: rest => pairs fuel depth done rest
          | rest => return (.table .braced done, ← expect '\x7d' rest)

end

/-- A document while it is read, with the place of the table that key lines add to. -/
structure Document where
  root : Table Node := .empty
  place : List String := []

namespace Document

def readLine (d : Document) : List Char → Except Fault (Document × List Char)
  | '[' :: '[' :: rest => do
      let ((path, name), rest) ← key rest
      let rest ← expect ']' (← expect ']' rest)
      return (⟨← Node.openItem path name d.root, path ++ [name]⟩, rest)
  | '[' :: rest => do
      let ((path, name), rest) ← key rest
      let rest ← expect ']' rest
      return (⟨← Node.openTable path name d.root, path ++ [name]⟩, rest)
  | text => do
      let ((path, name), rest) ← key text
      let rest := skipBlanks (← expect '=' rest)
      let (item, rest) ← value (2 * rest.length + 2) greatestDepth rest
      let root ← Node.alter .implied (Node.set path name item) d.place d.root
      return ({ d with root }, rest)

def readLines : Nat → Document → List Char → Except Fault Document
  | 0, d, _ => .ok d
  | fuel + 1, d, text => do
      match ← skipFiller false text with
      | [] => return d
      | text =>
          let (d, rest) ← d.readLine text
          readLines fuel d (← skipLineEnd false rest)

end Document

/-- The table that a text stands for. A byte order mark may stand before it. -/
def read (text : String) : Except Fault (Table Node) := do
  let text := match text.toList with
    | '\uFEFF' :: rest => rest
    | text => text
  return (← Document.readLines (text.length + 1) {} text).root

end RolePlan.Toml
