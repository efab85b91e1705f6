import RolePlan.Value
import RolePlan.Yaml.Written.Scalar

/-!
# YAML text of a value tree

Collections are written in block form, two columns deeper than what holds them; a list directly
below a key is not indented. An empty collection is written as a pair of brackets or braces. A key
that does not fit on a line is marked by `?`, and its value by `:` on a line of its own.
-/

namespace RolePlan.Yaml

structure Page where
  text : String
  /-- The text ends with a line end, or is empty. -/
  fresh : Bool

namespace Page

def blank : Page := ⟨"", true⟩

def add (p : Page) (text : String) : Page := ⟨p.text ++ text, false⟩

def line (p : Page) (indent : Nat) : Page :=
  ⟨(if p.fresh then p.text else p.text.push '\n') ++ Written.spaces indent, false⟩

def addText (p : Page) (indent : Nat) (text : String) : Page :=
  ⟨p.text ++ Written.text indent text, Written.endsFresh text⟩

end Page

/-- A key stands on the line of its value if it has one line and at most 128 bytes. -/
def isSimpleKey (name : String) : Bool :=
  !name.toList.any isBreak && name.utf8ByteSize ≤ 128

/-- Where a value begins: behind a simple key, or behind one of the marks `-` and `:`. -/
inductive Place where
  | behindKey
  | behindMark
  deriving DecidableEq

/-- Begins the first line of a collection behind a mark, or a line of its own. -/
def startEntry (place : Place) (indent : Nat) (p : Page) : Page :=
  match place with
  | .behindKey => p.line indent
  | .behindMark => p.add " "

def writeKey (indent : Nat) (name : String) (p : Page) : Page × Place :=
  if isSimpleKey name then ((p.addText (indent + 2) name).add ":", .behindKey)
  else ((((p.add "? ").addText (indent + 2) name).line indent).add ":", .behindMark)

mutual

def writeValue (indent : Nat) (place : Place) (p : Page) : Value → Page
  | .null => p.add " null"
  | .bool b => p.add (" " ++ Value.boolText b)
  | .int n => p.add (" " ++ toString n)
  | .float x => p.add (" " ++ x.render .inDocument)
  | .string text => (p.add " ").addText (indent + 2) text
  | .list items =>
      if items.isEmpty then p.add " []"
      else writeItems (if place = .behindKey then indent else indent + 2) place p items
  | .object ⟨entries⟩ =>
      if entries.isEmpty then p.add " \x7b\x7d" else writeEntries (indent + 2) place p entries

def writeItems (indent : Nat) (place : Place) (p : Page) : List Value → Page
  | [] => p
  | item :: rest =>
      let p := (startEntry place indent p).add "-"
      writeItems indent .behindKey (writeValue indent .behindMark p item) rest

def writeEntries (indent : Nat) (place : Place) (p : Page) : List (String × Value) → Page
  | [] => p
  | (name, value) :: rest =>
      let (p, valuePlace) := writeKey indent name (startEntry place indent p)
      writeEntries indent .behindKey (writeValue indent valuePlace p value) rest

end

def write (fields : Table Value) : String :=
  match fields.entries with
  | [] => "\x7b\x7d\n"
  | entries => ((writeEntries 0 .behindKey .blank entries).line 0).text

end RolePlan.Yaml
