import RolePlan.Table
import RolePlan.Binary64

/-!
# Value trees

The general tree for every part of a document that has no shape of its own: defaults, property
values, metadata, outputs. An integer and a double are never equal; two objects are the same when
their entries are, in whatever order. The JSON text of a tree is the compact form: no blanks, fields
in their own order, only what must be escaped is escaped.
-/

namespace RolePlan

namespace Word

/-- The integer has a form of `bits` bits, with a sign or without one. -/
def fits (bits : Nat) (n : Int) : Bool :=
  -Int.ofNat (Nat.pow 2 (bits - 1)) ≤ n && n < Int.ofNat (Nat.pow 2 bits)

end Word

inductive Kind where
  | null
  | boolean
  | number
  | string
  | list
  | mapping
  deriving DecidableEq, Repr

def Kind.name : Kind → String
  | .null => "null"
  | .boolean => "boolean"
  | .number => "number"
  | .string => "string"
  | .list => "list"
  | .mapping => "mapping"

inductive Value where
  | null
  | bool (b : Bool)
  | int (n : Int)
  | float (x : Binary64)
  | string (text : String)
  | list (items : List Value)
  | object (fields : Table Value)
  deriving Inhabited

namespace Value

def kind : Value → Kind
  | .null => .null
  | .bool _ => .boolean
  | .int _ => .number
  | .float _ => .number
  | .string _ => .string
  | .list _ => .list
  | .object _ => .mapping

def boolText (b : Bool) : String := if b then "true" else "false"

def scalarText? : Value → Option String
  | .string text => some text
  | .int n => some (toString n)
  | .float x => some (x.render .inText)
  | .bool b => some (boolText b)
  | _ => none

def string? : Value → Option String
  | .string text => some text
  | _ => none

def object? : Value → Option (Table Value)
  | .object fields => some fields
  | _ => none

def field? (v : Value) (name : String) : Option Value := v.object?.bind (·.find? name)

def single (name : String) (v : Value) : Value := .object ⟨[(name, v)]⟩

mutual

def same : Value → Value → Bool
  | .null, .null => true
  | .bool a, .bool b => a == b
  | .int a, .int b => a == b
  | .float a, .float b => a.same b
  | .string a, .string b => a == b
  | .list xs, .list ys => sameItems xs ys
  | .object ⟨xs⟩, .object ⟨ys⟩ => xs.length == ys.length && sameEntries xs ys
  | _, _ => false

def sameItems : List Value → List Value → Bool
  | [], [] => true
  | x :: xs, y :: ys => same x y && sameItems xs ys
  | _, _ => false

def sameEntries : List (String × Value) → List (String × Value) → Bool
  | [], _ => true
  | (name, x) :: xs, ys =>
      (match ys.lookup name with
        | some y => same x y
        | none => false) && sameEntries xs ys

end

/-! ## JSON text -/

def hexDigit (n : Nat) : Char := Nat.digitChar n

def jsonChar (c : Char) : String :=
  if c = '"' then "\\\""
  else if c = '\\' then "\\\\"
  else if c = '\n' then "\\n"
  else if c = '\r' then "\\r"
  else if c = '\t' then "\\t"
  else if c.toNat = 8 then "\\b"
  else if c.toNat = 12 then "\\f"
  else if c.toNat < 32 then
    "\\u00" ++ String.ofList [hexDigit (c.toNat / 16), hexDigit (c.toNat % 16)]
  else String.singleton c

def jsonString (text : String) : String :=
  "\"" ++ String.join (text.toList.map jsonChar) ++ "\""

mutual

def jsonText : Value → String
  | .null => "null"
  | .bool b => boolText b
  | .int n => toString n
  | .float x => x.render .inText
  | .string text => jsonString text
  | .list items => "[" ++ ",".intercalate (jsonItems items) ++ "]"
  | .object ⟨entries⟩ => "\x7b" ++ ",".intercalate (jsonEntries entries) ++ "\x7d"

def jsonItems : List Value → List String
  | [] => []
  | v :: rest => jsonText v :: jsonItems rest

def jsonEntries : List (String × Value) → List String
  | [] => []
  | (name, v) :: rest => (jsonString name ++ ":" ++ jsonText v) :: jsonEntries rest

end

end Value

end RolePlan
