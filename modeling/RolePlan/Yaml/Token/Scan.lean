import RolePlan.Yaml.Token

/-!
# Tokens of a document

`scan` cuts a text into tokens. Indentation opens and closes block collections. A node may turn out
to be a key when a `:` follows on its line: its place is remembered, and the key token is put there
afterwards.
-/

namespace RolePlan.Yaml.Token

structure PossibleKey where
  /-- Something other than a key cannot stand there. -/
  required : Bool
  tokenIndex : Nat
  start : Cursor

structure Scanner where
  cursor : Cursor
  /-- An upper bound for the steps of every loop. -/
  limit : Nat
  tokens : Array Token := #[]
  /-- The columns of the open block collections, the innermost first. -/
  blocks : List Nat := []
  /-- A key may begin at the position. -/
  keyAllowed : Bool := true
  key : Option PossibleKey := none
  /-- The possible keys of the open flow collections and of the block around them. -/
  outerKeys : List (Option PossibleKey) := []

namespace Scanner

def inFlow (s : Scanner) : Bool := !s.outerKeys.isEmpty

def nextIndent (s : Scanner) : Nat :=
  match s.blocks with
  | [] => 0
  | column :: _ => column + 1

def push (s : Scanner) (token : Token) : Scanner := { s with tokens := s.tokens.push token }

/-- Closes the block collections further right than `column`; none closes all. -/
def closeBlocks (s : Scanner) (column : Option Nat) : Scanner :=
  if s.inFlow then s
  else
    let open? (block : Nat) : Bool := column.all (· < block)
    let closed := s.blocks.takeWhile open?
    { s with
      tokens := closed.foldl (fun tokens _ => tokens.push .blockEnd) s.tokens
      blocks := s.blocks.dropWhile open? }

/-- Opens a block collection at the column, if it is further right than the innermost one. -/
def openBlock (s : Scanner) (column : Nat) (index : Option Nat) (token : Token) : Scanner :=
  if s.inFlow || column < s.nextIndent then s
  else
    { s with
      blocks := column :: s.blocks
      tokens := match index with
        | none => s.tokens.push token
        | some i => s.tokens.insertIdxIfInBounds i token }

def missingColon : String := "could not find expected ':'"

/-- A key must stand on one line and be at most 1024 characters long. -/
def isStale (s : Scanner) (key : PossibleKey) : Bool :=
  key.start.line < s.cursor.line || key.start.index + 1024 < s.cursor.index

def dropStale (s : Scanner) : Option PossibleKey → Except String (Option PossibleKey)
  | none => .ok none
  | some key =>
      if !s.isStale key then .ok (some key)
      else if key.required then .error missingColon
      else .ok none

def dropStaleKeys (s : Scanner) : Except String Scanner := do
  let outerKeys ← s.outerKeys.mapM s.dropStale
  let key ← s.dropStale s.key
  return { s with key, outerKeys }

def removeKey (s : Scanner) : Except String Scanner :=
  if s.key.any (·.required) then .error missingColon else .ok { s with key := none }

def saveKey (s : Scanner) : Except String Scanner :=
  if !s.keyAllowed then .ok s
  else do
    let s ← s.removeKey
    let required := !s.inFlow && s.nextIndent == s.cursor.column + 1
    return { s with key := some ⟨required, s.tokens.size, s.cursor⟩ }

/-- Passes blanks, comments and line ends. A line end in a block allows a key after it. -/
def toTokenFuel (inFlow : Bool) : Nat → Cursor → Bool → Cursor × Bool
  | 0, c, allowed => (c, allowed)
  | fuel + 1, c, allowed =>
      match c.peek? with
      | none => (c, allowed)
      | some ch =>
          if ch = '\uFEFF' && c.index = 0 then toTokenFuel inFlow fuel c.next allowed
          else if ch = ' ' || (ch = '\t' && (inFlow || !allowed)) then
            toTokenFuel inFlow fuel c.next allowed
          else if ch = '#' then toTokenFuel inFlow fuel (c.skipWhile (!isBreak ·)) allowed
          else if isBreak ch then toTokenFuel inFlow fuel c.nextLine (allowed || !inFlow)
          else (c, allowed)

def toToken (s : Scanner) : Scanner :=
  let (cursor, keyAllowed) := toTokenFuel s.inFlow s.limit s.cursor s.keyAllowed
  { s with cursor, keyAllowed }

def mark (s : Scanner) (width : Nat) (token : Token) : Scanner :=
  { s with cursor := s.cursor.skip width, tokens := s.tokens.push token }

def fetchStreamEnd (s : Scanner) : Except String Scanner := do
  let s ← (s.closeBlocks none).removeKey
  return s.push .streamEnd

def fetchDirective (s : Scanner) : Except String Scanner := do
  let s ← (s.closeBlocks none).removeKey
  let (token, cursor) ← directive s.limit s.cursor
  return { s.push token with cursor, keyAllowed := false }

def fetchDocumentMark (s : Scanner) (token : Token) : Except String Scanner := do
  let s ← (s.closeBlocks none).removeKey
  return { s.mark 3 token with keyAllowed := false }

def fetchFlowStart (s : Scanner) (token : Token) : Except String Scanner := do
  let s ← s.saveKey
  return { s.mark 1 token with key := none, outerKeys := s.key :: s.outerKeys, keyAllowed := true }

def fetchFlowEnd (s : Scanner) (token : Token) : Except String Scanner := do
  let s ← s.removeKey
  let s := match s.outerKeys with
    | [] => s
    | key :: outerKeys => { s with key, outerKeys }
  return { s.mark 1 token with keyAllowed := false }

def fetchFlowEntry (s : Scanner) : Except String Scanner := do
  let s ← s.removeKey
  return { s.mark 1 .flowEntry with keyAllowed := true }

def fetchBlockEntry (s : Scanner) : Except String Scanner := do
  if !s.inFlow && !s.keyAllowed then
    throw "block sequence entries are not allowed in this context"
  let s ← (s.openBlock s.cursor.column none .blockSequenceStart).removeKey
  return { s.mark 1 .blockEntry with keyAllowed := true }

def fetchKey (s : Scanner) : Except String Scanner := do
  if !s.inFlow && !s.keyAllowed then throw "mapping keys are not allowed in this context"
  let s ← (s.openBlock s.cursor.column none .blockMappingStart).removeKey
  return { s.mark 1 .key with keyAllowed := !s.inFlow }

def fetchValue (s : Scanner) : Except String Scanner :=
  match s.key with
  | some key =>
      let s := { s with tokens := s.tokens.insertIdxIfInBounds key.tokenIndex .key }
      let s := s.openBlock key.start.column (some key.tokenIndex) .blockMappingStart
      .ok { s.mark 1 .value with key := none, keyAllowed := false }
  | none =>
      if !s.inFlow && !s.keyAllowed then
        .error "mapping values are not allowed in this context"
      else
        let s := s.openBlock s.cursor.column none .blockMappingStart
        .ok { s.mark 1 .value with keyAllowed := !s.inFlow }

def fetchAnchor (s : Scanner) (token : String → Token) : Except String Scanner := do
  let s ← s.saveKey
  let (name, cursor) ← anchorName s.cursor
  return { s.push (token name) with cursor, keyAllowed := false }

def fetchTag (s : Scanner) : Except String Scanner := do
  let s ← s.saveKey
  let (token, cursor) ← tagName s.inFlow s.limit s.cursor
  return { s.push token with cursor, keyAllowed := false }

def fetchBlock (s : Scanner) (folded : Bool) : Except String Scanner := do
  let s ← s.removeKey
  let (text, cursor) ← block folded (s.blocks.headD 0) s.nextIndent s.limit s.cursor
  return { s.push (.scalar false text) with cursor, keyAllowed := true }

def fetchQuoted (s : Scanner) (quote : Char) : Except String Scanner := do
  let s ← s.saveKey
  let (text, cursor) ← quoted quote s.limit s.cursor
  return { s.push (.scalar false text) with cursor, keyAllowed := false }

def fetchPlain (s : Scanner) : Except String Scanner := do
  let s ← s.saveKey
  let (text, broken, cursor) ← plain s.inFlow s.nextIndent s.limit s.cursor
  return { s.push (.scalar true text) with cursor, keyAllowed := broken }

def isIndicator (c : Char) : Bool := "-?:,[]\x7b\x7d#&*!|>'\"%@`".toList.contains c

/-- A plain scalar may begin here: with `-`, `?` or `:` only if no gap follows. -/
def startsPlain (s : Scanner) (ch : Char) : Bool :=
  let next := s.cursor.rest.drop 1 |>.head?
  !(isGap ch || isIndicator ch) ||
    (ch = '-' && !next.any isBlank) ||
    (!s.inFlow && (ch = '?' || ch = ':') && !s.cursor.gapAt 1)

def fetchAt (s : Scanner) (ch : Char) : Except String Scanner :=
  let c := s.cursor
  if c.column = 0 && ch = '%' then s.fetchDirective
  else if c.atDocumentStart then s.fetchDocumentMark .documentStart
  else if c.atDocumentEnd then s.fetchDocumentMark .documentEnd
  else if ch = '[' then s.fetchFlowStart .flowSequenceStart
  else if ch = '\x7b' then s.fetchFlowStart .flowMappingStart
  else if ch = ']' then s.fetchFlowEnd .flowSequenceEnd
  else if ch = '\x7d' then s.fetchFlowEnd .flowMappingEnd
  else if ch = ',' then s.fetchFlowEntry
  else if ch = '-' && c.gapAt 1 then s.fetchBlockEntry
  else if ch = '?' && (s.inFlow || c.gapAt 1) then s.fetchKey
  else if ch = ':' && (s.inFlow || c.gapAt 1) then s.fetchValue
  else if ch = '*' then s.fetchAnchor .reference
  else if ch = '&' then s.fetchAnchor .anchor
  else if ch = '!' then s.fetchTag
  else if ch = '|' && !s.inFlow then s.fetchBlock false
  else if ch = '>' && !s.inFlow then s.fetchBlock true
  else if ch = '\'' || ch = '"' then s.fetchQuoted ch
  else if s.startsPlain ch then s.fetchPlain
  else .error "found character that cannot start any token"

/-- Every step reads a token of at least one character, or ends the stream. -/
def runFuel : Nat → Scanner → Except String (Array Token)
  | 0, s => .ok s.tokens
  | fuel + 1, s => do
      let s ← s.toToken.dropStaleKeys
      let s := s.closeBlocks (some s.cursor.column)
      match s.cursor.peek? with
      | none =>
          let s ← s.fetchStreamEnd
          return s.tokens
      | some ch =>
          let s ← s.fetchAt ch
          runFuel fuel s

end Scanner

/-- The tokens of a text, the last of them the end of the stream. -/
def scan (text : String) : Except String (Array Token) :=
  let characters := text.toList
  if characters.all isAllowed then
    let limit := characters.length + 1
    Scanner.runFuel limit { cursor := .start characters, limit }
  else .error "control characters are not allowed"

end RolePlan.Yaml.Token
