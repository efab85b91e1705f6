import RolePlan.Text.Invisible
import RolePlan.Yaml.Node
import RolePlan.Yaml.Scalar
import RolePlan.Yaml.Token.Scan

/-!
# YAML trees

What a document says: nodes with their aliases followed, their scalars read and their local tags
attached. A mapping holds no two equal keys.
-/

namespace RolePlan.Yaml

inductive Tree where
  | scalar (value : Scalar)
  | sequence (items : List Tree)
  | mapping (entries : List (Tree × Tree))
  | tagged (tag : String) (content : Tree)

namespace Tree

mutual

def same : Tree → Tree → Bool
  | .scalar a, .scalar b => a.same b
  | .sequence xs, .sequence ys => sameItems xs ys
  | .mapping xs, .mapping ys => xs.length == ys.length && sameEntries xs ys
  | .tagged t a, .tagged u b => t == u && same a b
  | _, _ => false

def sameItems : List Tree → List Tree → Bool
  | [], [] => true
  | x :: xs, y :: ys => same x y && sameItems xs ys
  | _, _ => false

def sameEntries : List (Tree × Tree) → List (Tree × Tree) → Bool
  | [], _ => true
  | (key, value) :: rest, ys =>
      ys.any (fun other => same key other.1 && same value other.2) && sameEntries rest ys

end

/-- The text of a local tag without its mark; the lone mark stands for itself. -/
def localTag? (tag : String) : Option String :=
  match tag.toList with
  | ['!'] => some "!"
  | '!' :: name => some (String.ofList name)
  | _ => none

def wanted? (tag : String) : Option Scalar.Wanted :=
  if tag = Node.coreTags ++ "bool" then some .bool
  else if tag = Node.coreTags ++ "int" then some .int
  else if tag = Node.coreTags ++ "float" then some .float
  else if tag = Node.coreTags ++ "null" then some .null
  else none

/-- Reads a scalar. A tag that asks for no known type makes it a text. -/
def ofScalar (tag : Option String) (plain : Bool) (text : String) : Except String Scalar :=
  match tag with
  | some tag =>
      match wanted? tag with
      | some wanted => Scalar.ofWanted wanted text
      | none => .ok (.string text)
  | none => if plain then Scalar.ofPlain text else .ok (.string text)

/-- Nodes with an anchor, in document order. -/
abbrev Anchored := List (Nat × Node)

def own (marks : Marks) (node : Node) : Anchored :=
  match marks.anchor with
  | none => []
  | some number => [(number, node)]

mutual

def anchored (node : Node) : Anchored :=
  match node with
  | .reference _ => []
  | .scalar marks _ _ => own marks node
  | .sequence marks items => own marks node ++ anchoredItems items
  | .mapping marks entries => own marks node ++ anchoredEntries entries

def anchoredItems : List Node → Anchored
  | [] => []
  | node :: rest => anchored node ++ anchoredItems rest

def anchoredEntries : List (Node × Node) → Anchored
  | [] => []
  | (key, value) :: rest => anchored key ++ (anchored value ++ anchoredEntries rest)

end

mutual

/-- The number of marks that open, close or make up a node. -/
def weight : Node → Nat
  | .reference _ => 1
  | .scalar .. => 1
  | .sequence _ items => 2 + weightItems items
  | .mapping _ entries => 2 + weightEntries entries

def weightItems : List Node → Nat
  | [] => 0
  | node :: rest => weight node + weightItems rest

def weightEntries : List (Node × Node) → Nat
  | [] => 0
  | (key, value) :: rest => weight key + weight value + weightEntries rest

end

abbrev Following := StateT Nat (Except String)

/-- The node itself, or the one that an alias stands for: the last with its number. -/
def follow (anchors : Anchored) (node : Node) : Following Node := do
  match node with
  | .reference number =>
      match ← get with
      | 0 => throw "repetition limit exceeded"
      | left + 1 => set left
      match anchors.reverse.lookup number with
      | some target => return target
      | none => throw "unknown anchor"
  | _ => return node

/-- Attaches a local tag and builds the content behind it, unless a local tag came before. -/
def wrap (behindTag : Bool) (tag : Option String) (content : Bool → Following Tree) :
    Following Tree :=
  match (if behindTag then none else tag.bind localTag?) with
  | some name => return .tagged name (← content true)
  | none => content behindTag

def addEntry (buildKey buildValue : Node → Following Tree) (done : List (Tree × Tree))
    (entry : Node × Node) : Following (List (Tree × Tree)) := do
  let key ← buildKey entry.1
  if done.any (same key ·.1) then throw "duplicate entry"
  let value ← buildValue entry.2
  return (key, value) :: done

/-- Builds a tree of at most `depth` nested collections. Directly behind a local tag a node's own
tag is not looked at, and neither are those of the keys of a mapping behind one. -/
def build (anchors : Anchored) : (depth : Nat) → (behindTag : Bool) → Node → Following Tree
  | depth, behindTag, node => do
      let behindTag := behindTag && !(node matches .reference _)
      match ← follow anchors node with
      | .reference _ => throw "unknown anchor"
      | .scalar marks plain text =>
          wrap behindTag marks.tag fun inside => do
            return .scalar (← ofScalar (if inside then none else marks.tag) plain text)
      | .sequence marks items =>
          match depth with
          | 0 => throw "recursion limit exceeded"
          | depth + 1 =>
              wrap behindTag marks.tag fun _ =>
                return .sequence (← items.mapM (build anchors depth false))
      | .mapping marks entries =>
          match depth with
          | 0 => throw "recursion limit exceeded"
          | depth + 1 =>
              wrap behindTag marks.tag fun inside => do
                let add := addEntry (build anchors depth inside) (build anchors depth false)
                return .mapping (← entries.foldlM add []).reverse

/-- The tree of a node. The number of aliases that may be followed grows with the document. -/
def ofNode (node : Node) : Except String Tree := do
  let (tree, _) ← (build (anchored node) Node.depthLimit false node).run (100 * weight node)
  return tree

/-- The tree of a text; a text without a document is null. -/
def read (text : String) : Except String Tree := do
  let tokens ← Token.scan text
  match ← Node.ofTokens? tokens with
  | none => return .scalar .null
  | some node => ofNode node

def shownScalar : Scalar → String
  | .null => "Null"
  | .bool b => "Bool(" ++ (if b then "true" else "false") ++ ")"
  | .string text => "String(" ++ Text.quoted text ++ ")"
  | number => "Number(" ++ (number.numberText?).getD "" ++ ")"

/-- A scalar as error messages show it where it is a key. -/
def shownKeyScalar : Scalar → String
  | .null => "Null"
  | .bool b => if b then "true" else "false"
  | .string text => Text.quoted text
  | number => (number.numberText?).getD ""

def shownTag (name : String) : String := "!" ++ name

mutual

def shown : Tree → String
  | .scalar value => shownScalar value
  | .sequence items => "Sequence [" ++ ", ".intercalate (shownItems items) ++ "]"
  | .mapping entries => "Mapping \x7b" ++ ", ".intercalate (shownEntries entries) ++ "\x7d"
  | .tagged tag content =>
      "TaggedValue \x7b tag: " ++ shownTag tag ++ ", value: " ++ shown content ++ " \x7d"

def shownItems : List Tree → List String
  | [] => []
  | tree :: rest => shown tree :: shownItems rest

def shownEntries : List (Tree × Tree) → List String
  | [] => []
  | (key, value) :: rest => (shownKey key ++ ": " ++ shown value) :: shownEntries rest

def shownKey : Tree → String
  | .scalar value => shownKeyScalar value
  | .sequence items => "Sequence [" ++ ", ".intercalate (shownItems items) ++ "]"
  | .mapping entries => "Mapping \x7b" ++ ", ".intercalate (shownEntries entries) ++ "\x7d"
  | .tagged tag content =>
      "TaggedValue \x7b tag: " ++ shownTag tag ++ ", value: " ++ shown content ++ " \x7d"

end

end Tree

end RolePlan.Yaml
