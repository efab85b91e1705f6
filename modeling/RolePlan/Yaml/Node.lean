import RolePlan.Table
import RolePlan.Yaml.Token

/-!
# YAML nodes

The tree that the tokens of one document spell out, before its aliases are followed and its scalars
are read. Anchors carry numbers: an anchor is numbered by how many names are in use before it, and
an alias refers to the number last given to its name.
-/

namespace RolePlan.Yaml

structure Marks where
  anchor : Option Nat := none
  tag : Option String := none

def Marks.isEmpty (marks : Marks) : Bool := marks.anchor.isNone && marks.tag.isNone

inductive Node where
  | reference (anchor : Nat)
  | scalar (marks : Marks) (plain : Bool) (text : String)
  | sequence (marks : Marks) (items : List Node)
  | mapping (marks : Marks) (entries : List (Node × Node))

def Node.blank (marks : Marks) : Node := .scalar marks true ""

namespace Node

structure Source where
  tokens : List Token
  anchors : Table Nat := .empty

def Source.drop (s : Source) (count : Nat) : Source := { s with tokens := s.tokens.drop count }

def Source.peek? (s : Source) : Option Token := s.tokens.head?

def Source.peekIs (s : Source) (tokens : List Token) : Bool := s.tokens.head?.any tokens.contains

abbrev Reader (α : Type) := Source → Except String (α × Source)

def depthLimit : Nat := 128

def deeper : Nat → Except String Nat
  | 0 => .error "recursion limit exceeded"
  | depth + 1 => .ok depth

def expandTag (handles : Table String) (handle suffix : String) : Except String String :=
  if handle.isEmpty then .ok suffix
  else
    match handles.find? handle with
    | some expansion => .ok (expansion ++ suffix)
    | none => .error "found undefined tag handle"

def readMarks (handles : Table String) : Reader Marks := fun s => do
  let anchored (name : String) (s : Source) : Nat × Table Nat :=
    (s.anchors.size, s.anchors.put name s.anchors.size)
  match s.tokens with
  | .anchor name :: .tag handle suffix :: rest =>
      let (number, anchors) := anchored name s
      let tag ← expandTag handles handle suffix
      return ({ anchor := number, tag }, { tokens := rest, anchors })
  | .tag handle suffix :: .anchor name :: rest =>
      let (number, anchors) := anchored name s
      let tag ← expandTag handles handle suffix
      return ({ anchor := number, tag }, { tokens := rest, anchors })
  | .anchor name :: rest =>
      let (number, anchors) := anchored name s
      return ({ anchor := number }, { tokens := rest, anchors })
  | .tag handle suffix :: rest =>
      let tag ← expandTag handles handle suffix
      return ({ tag }, { s with tokens := rest })
  | _ => return ({}, s)

mutual

/-- Reads a node. Block collections are admitted if `block` is set, and a sequence at the
indentation of its key if `indentless` is set. -/
def readFuel (handles : Table String) :
    Nat → (depth : Nat) → (block indentless : Bool) → Reader Node
  | 0, _, _, _, _ => .error "document is too long"
  | fuel + 1, depth, block, indentless, s => do
      if let some (.reference name) := s.peek? then
        match s.anchors.find? name with
        | some number => return (.reference number, s.drop 1)
        | none => throw "unknown anchor"
      let (marks, s) ← readMarks handles s
      match s.peek? with
      | some (.scalar plain text) =>
          let marks := if marks.tag = some "!" then { marks with tag := none } else marks
          return (.scalar marks plain text, s.drop 1)
      | some token =>
          if indentless && token = .blockEntry then
            let (items, s) ← indentlessFuel handles fuel (← deeper depth) [] s
            return (.sequence marks items, s)
          else if token = .flowSequenceStart then
            let (items, s) ← flowItemsFuel handles fuel (← deeper depth) true [] (s.drop 1)
            return (.sequence marks items, s)
          else if token = .flowMappingStart then
            let (entries, s) ← flowEntriesFuel handles fuel (← deeper depth) true [] (s.drop 1)
            return (.mapping marks entries, s)
          else if block && token = .blockSequenceStart then
            let (items, s) ← blockItemsFuel handles fuel (← deeper depth) [] (s.drop 1)
            return (.sequence marks items, s)
          else if block && token = .blockMappingStart then
            let (entries, s) ← blockEntriesFuel handles fuel (← deeper depth) [] (s.drop 1)
            return (.mapping marks entries, s)
          else if marks.isEmpty then throw "did not find expected node content"
          else return (.blank marks, s)
      | none => throw "did not find expected node content"

/-- Reads a node, unless one of the tokens follows that show that nothing is written. -/
def optionalFuel (handles : Table String) :
    Nat → (depth : Nat) → (block indentless : Bool) → List Token → Reader Node
  | 0, _, _, _, _, _ => .error "document is too long"
  | fuel + 1, depth, block, indentless, ends, s =>
      if s.peekIs ends then .ok (.blank {}, s)
      else readFuel handles fuel depth block indentless s

def blockItemsFuel (handles : Table String) :
    Nat → (depth : Nat) → List Node → Reader (List Node)
  | 0, _, _, _ => .error "document is too long"
  | fuel + 1, depth, items, s => do
      match s.peek? with
      | some .blockEntry =>
          let (item, s) ← optionalFuel handles fuel depth true false [.blockEntry, .blockEnd]
            (s.drop 1)
          blockItemsFuel handles fuel depth (item :: items) s
      | some .blockEnd => return (items.reverse, s.drop 1)
      | _ => throw "did not find expected '-' indicator"

def indentlessFuel (handles : Table String) :
    Nat → (depth : Nat) → List Node → Reader (List Node)
  | 0, _, _, _ => .error "document is too long"
  | fuel + 1, depth, items, s => do
      match s.peek? with
      | some .blockEntry =>
          let (item, s) ← optionalFuel handles fuel depth true false
            [.blockEntry, .key, .value, .blockEnd] (s.drop 1)
          indentlessFuel handles fuel depth (item :: items) s
      | _ => return (items.reverse, s)

def blockEntriesFuel (handles : Table String) :
    Nat → (depth : Nat) → List (Node × Node) → Reader (List (Node × Node))
  | 0, _, _, _ => .error "document is too long"
  | fuel + 1, depth, entries, s => do
      match s.peek? with
      | some .key =>
          let ends := [.key, .value, .blockEnd]
          let (key, s) ← optionalFuel handles fuel depth true true ends (s.drop 1)
          let (value, s) ←
            if s.peek? = some .value then optionalFuel handles fuel depth true true ends (s.drop 1)
            else pure (Node.blank {}, s)
          blockEntriesFuel handles fuel depth ((key, value) :: entries) s
      | some .blockEnd => return (entries.reverse, s.drop 1)
      | _ => throw "did not find expected key"

/-- The items of a flow sequence. An item may be a single entry without braces; where the entry has
no key, the token behind its mark is passed over. -/
def flowItemsFuel (handles : Table String) :
    Nat → (depth : Nat) → (first : Bool) → List Node → Reader (List Node)
  | 0, _, _, _, _ => .error "document is too long"
  | fuel + 1, depth, first, items, s => do
      if s.peek? = some .flowSequenceEnd then return (items.reverse, s.drop 1)
      if !first && s.peek? ≠ some .flowEntry then throw "did not find expected ',' or ']'"
      let s := if first then s else s.drop 1
      match s.peek? with
      | some .flowSequenceEnd => return (items.reverse, s.drop 1)
      | some .key =>
          let inner ← deeper depth
          let s := s.drop 1
          let (key, s) ←
            if s.peekIs [.value, .flowEntry, .flowSequenceEnd] then pure (Node.blank {}, s.drop 1)
            else readFuel handles fuel inner false false s
          let (value, s) ←
            if s.peek? = some .value then
              optionalFuel handles fuel inner false false [.flowEntry, .flowSequenceEnd] (s.drop 1)
            else pure (Node.blank {}, s)
          flowItemsFuel handles fuel depth false (.mapping {} [(key, value)] :: items) s
      | _ =>
          let (item, s) ← readFuel handles fuel depth false false s
          flowItemsFuel handles fuel depth false (item :: items) s

def flowEntriesFuel (handles : Table String) :
    Nat → (depth : Nat) → (first : Bool) → List (Node × Node) → Reader (List (Node × Node))
  | 0, _, _, _, _ => .error "document is too long"
  | fuel + 1, depth, first, entries, s => do
      if s.peek? = some .flowMappingEnd then return (entries.reverse, s.drop 1)
      if !first && s.peek? ≠ some .flowEntry then throw "did not find expected ',' or a brace"
      let s := if first then s else s.drop 1
      match s.peek? with
      | some .flowMappingEnd => return (entries.reverse, s.drop 1)
      | some .key =>
          let (key, s) ← optionalFuel handles fuel depth false false
            [.value, .flowEntry, .flowMappingEnd] (s.drop 1)
          let (value, s) ←
            if s.peek? = some .value then
              optionalFuel handles fuel depth false false [.flowEntry, .flowMappingEnd] (s.drop 1)
            else pure (Node.blank {}, s)
          flowEntriesFuel handles fuel depth false ((key, value) :: entries) s
      | _ =>
          let (key, s) ← readFuel handles fuel depth false false s
          flowEntriesFuel handles fuel depth false ((key, .blank {}) :: entries) s

end

def isDirective : Token → Bool
  | .versionDirective .. => true
  | .tagDirective .. => true
  | _ => false

/-- Takes in the directives: at most one version, which must be known, and each handle once. -/
def readDirectives (versioned : Bool) (handles : Table String) :
    List Token → Except String (Table String)
  | [] => .ok handles
  | .versionDirective major minor :: rest =>
      if versioned then .error "found duplicate %YAML directive"
      else if major ≠ 1 || (minor ≠ 1 && minor ≠ 2) then .error "found incompatible YAML document"
      else readDirectives true handles rest
  | .tagDirective handle expansion :: rest =>
      match handles.add? handle expansion with
      | none => .error "found duplicate %TAG directive"
      | some handles => readDirectives versioned handles rest
  | _ :: rest => readDirectives versioned handles rest

def coreTags : String := "tag:yaml.org,2002:"

def withDefaults (handles : Table String) : Table String :=
  let add (handles : Table String) (handle expansion : String) : Table String :=
    (handles.add? handle expansion).getD handles
  add (add handles "!" "!") "!!" coreTags

/-- Nothing but document ends and the end of the stream may follow the document. -/
def atEnd (tokens : List Token) : Bool := tokens.dropWhile (· = .documentEnd) = [.streamEnd]

/-- The root of a document. Behind an explicit start nothing at all may be written. -/
def readRoot (handles : Table String) (fuel : Nat) (explicit : Bool) : Reader Node := fun s =>
  if !explicit then readFuel handles fuel depthLimit true false s
  else if s.peek?.any isDirective then .ok (.blank {}, s)
  else
    optionalFuel handles fuel depthLimit true false [.documentStart, .documentEnd, .streamEnd] s

/-- The node of the one document in a stream; none if the stream holds no document. -/
def ofTokens? (tokens : Array Token) : Except String (Option Node) := do
  let fuel := 4 * tokens.size + 16
  let tokens := tokens.toList
  if tokens = [.streamEnd] then return none
  let directives := tokens.takeWhile isDirective
  let rest := tokens.drop directives.length
  let handles ← readDirectives false .empty directives
  let handles := withDefaults handles
  let explicit := rest.head? = some .documentStart
  if !explicit && !directives.isEmpty then throw "did not find expected <document start>"
  let s : Source := { tokens := if explicit then rest.drop 1 else rest }
  let (node, s) ← readRoot handles fuel explicit s
  if atEnd s.tokens then return some node
  throw "did not find expected end of the document"

end Node

end RolePlan.Yaml
