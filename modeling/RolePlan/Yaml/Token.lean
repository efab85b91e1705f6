import RolePlan.Yaml.Token.Scalar

/-!
# YAML tokens

The marks and scalars of a document in their order, with block structure made explicit: a block
collection is opened and closed by tokens of its own, and a key is announced before its node. The
tokens that are made of names are read here: anchors, tags and directives, which follow `&`, `*`,
`!` and, at the beginning of a line, `%`.
-/

namespace RolePlan.Yaml

inductive Token where
  | streamEnd
  | versionDirective (major minor : Nat)
  | tagDirective (handle expansion : String)
  | documentStart
  | documentEnd
  | blockSequenceStart
  | blockMappingStart
  | blockEnd
  | flowSequenceStart
  | flowSequenceEnd
  | flowMappingStart
  | flowMappingEnd
  | blockEntry
  | flowEntry
  | key
  | value
  | reference (name : String)
  | anchor (name : String)
  | tag (handle suffix : String)
  | scalar (plain : Bool) (text : String)
  deriving DecidableEq, Repr

namespace Token

def anchorName (c : Cursor) : Except String (String × Cursor) :=
  let (name, c) := c.next.span isWordChar
  if name.isEmpty || !(c.gapAt 0 || c.peekIs ("?:,]\x7d%@`".toList.contains ·)) then
    .error "did not find expected alphabetic or numeric character"
  else .ok (String.ofList name, c)

def isTagChar (c : Char) : Bool := isWordChar c || ";/?:@&=+$.%!~*'()".toList.contains c

def sequenceLength? (byte : Nat) : Option Nat :=
  if byte < 0x80 then some 1
  else if 0xC0 ≤ byte && byte < 0xE0 then some 2
  else if 0xE0 ≤ byte && byte < 0xF0 then some 3
  else if 0xF0 ≤ byte && byte < 0xF8 then some 4
  else none

def octet? : List Char → Option Nat
  | '%' :: high :: low :: _ => do
      let high ← hexValue? high
      let low ← hexValue? low
      return 16 * high + low
  | _ => none

def octets : Nat → Nat → Cursor → Except String (Nat × Cursor)
  | 0, code, c => .ok (code, c)
  | count + 1, code, c =>
      match octet? c.rest with
      | none => .error "did not find URI escaped octet"
      | some byte =>
          if byte / 64 = 2 then octets count (64 * code + byte % 64) (c.skip 3)
          else .error "found an incorrect trailing UTF-8 octet"

def uriEscape (c : Cursor) : Except String (Char × Cursor) :=
  match octet? c.rest with
  | none => .error "did not find URI escaped octet"
  | some byte =>
      match sequenceLength? byte with
      | none => .error "found an incorrect leading UTF-8 octet"
      | some 1 => .ok (Char.ofNat byte, c.skip 3)
      | some length => do
          let (code, c) ← octets (length - 1) (byte % Nat.pow 2 (7 - length)) (c.skip 3)
          return (if isCodePoint code then Char.ofNat code else '\uFFFD', c)

def uriFuel (verbatim : Bool) : Nat → String → Cursor → Except String (String × Cursor)
  | 0, text, c => .ok (text, c)
  | fuel + 1, text, c =>
      match c.peek? with
      | none => .ok (text, c)
      | some ch =>
          if ch = '%' then do
            let (escaped, c) ← uriEscape c
            uriFuel verbatim fuel (text.push escaped) c
          else if isTagChar ch || (verbatim && ",[]".toList.contains ch) then
            uriFuel verbatim fuel (text.push ch) c.next
          else .ok (text, c)

/-- The part of a tag behind its handle. It may be empty only behind a lone `!`, as `mayBeEmpty`
tells. -/
def uri (verbatim mayBeEmpty : Bool) (limit : Nat) (text : String) (c : Cursor) :
    Except String (String × Cursor) := do
  let (text, c) ← uriFuel verbatim limit text c
  if text.isEmpty && !mayBeEmpty then throw "did not find expected tag URI"
  return (text, c)

/-- Reads `!`, `!word` or `!word!`. -/
def tagHandle (c : Cursor) : Except String (String × Cursor) :=
  if c.peek? ≠ some '!' then .error "did not find expected '!'"
  else
    let (word, c) := c.next.span isWordChar
    let handle := String.ofList ('!' :: word)
    if c.peek? = some '!' then .ok (handle.push '!', c.next) else .ok (handle, c)

/-- A handle proper has a mark at both ends. -/
def isHandle (handle : String) : Bool := 1 < handle.length && handle.endsWith "!"

/-- Reads a tag: `!<uri>`, `!handle!suffix`, `!suffix` or `!` alone. -/
def tagName (inFlow : Bool) (limit : Nat) (c : Cursor) : Except String (Token × Cursor) := do
  let (handle, suffix, c) ←
    if (c.rest.drop 1).head? = some '<' then do
      let (suffix, c) ← uri true false limit "" (c.skip 2)
      if c.peek? ≠ some '>' then throw "did not find the expected '>'"
      pure ("", suffix, c.next)
    else do
      let (handle, c) ← tagHandle c
      if isHandle handle then
        let (suffix, c) ← uri false false limit "" c
        pure (handle, suffix, c)
      else
        let (suffix, c) ← uri false true limit (handle.drop 1).toString c
        pure (if suffix.isEmpty then ("", "!", c) else ("!", suffix, c))
  if (inFlow && c.peek? = some ',') || c.gapAt 0 then return (.tag handle suffix, c)
  throw "did not find expected whitespace or line break"

def versionNumber (c : Cursor) : Except String (Nat × Cursor) :=
  let (digits, c) := c.span Char.isDigit
  if digits.isEmpty then .error "did not find expected version number"
  else if 9 < digits.length then .error "found extremely long version number"
  else .ok (digits.foldl (fun n d => 10 * n + (d.toNat - '0'.toNat)) 0, c)

def directive (limit : Nat) (c : Cursor) : Except String (Token × Cursor) := do
  let (name, c) := c.next.span isWordChar
  if name.isEmpty then throw "could not find expected directive name"
  if !c.gapAt 0 then throw "found unexpected non-alphabetical character"
  let (token, c) ← match String.ofList name with
    | "YAML" => do
        let (major, c) ← versionNumber (c.skipWhile isBlank)
        if c.peek? ≠ some '.' then throw "did not find expected digit or '.' character"
        let (minor, c) ← versionNumber c.next
        pure (Token.versionDirective major minor, c)
    | "TAG" => do
        let (handle, c) ← tagHandle (c.skipWhile isBlank)
        if handle ≠ "!" && !isHandle handle then throw "did not find expected '!'"
        if !c.peekIs isBlank then throw "did not find expected whitespace"
        let (expansion, c) ← uri true false limit "" (c.skipWhile isBlank)
        if !c.gapAt 0 then throw "did not find expected whitespace or line break"
        pure (Token.tagDirective handle expansion, c)
    | _ => throw "found unknown directive name"
  let c := c.skipWhile isBlank
  let c := if c.peek? = some '#' then c.skipWhile (!isBreak ·) else c
  if c.rest.isEmpty then return (token, c)
  if c.peekIs isBreak then return (token, c.nextLine)
  throw "did not find expected comment or line break"

end Token

end RolePlan.Yaml
