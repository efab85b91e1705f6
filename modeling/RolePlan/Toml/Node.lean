import RolePlan.Toml.Text
import RolePlan.Value

/-!
# Trees of a TOML document

A document grows line by line: a header opens a table or adds one to a list of tables, a key line
sets a value. Which tables may still grow depends on how they came into being, so every table keeps
its origin.
-/

namespace RolePlan.Toml

inductive Origin where
  /-- It has a header of its own. -/
  | header
  /-- It lies on the path of a header. -/
  | implied
  /-- It lies on the path of a dotted key. -/
  | dotted
  /-- It is written in braces, and complete. -/
  | braced
  deriving DecidableEq, Repr

inductive Node where
  | string (text : String)
  | int (n : Int)
  | float (x : Binary64)
  /-- An infinity, or no number at all. -/
  | nonFinite
  /-- A number beyond every range. -/
  | tooLarge
  | bool (b : Bool)
  /-- A date, a time or both, in the normal form. -/
  | moment (text : String)
  /-- A list of values, or one of tables that headers add to. -/
  | array (grows : Bool) (items : List Node)
  | table (origin : Origin) (fields : Table Node)
  deriving Inhabited

namespace Node

/-- A path may lead through a table: headers pass all but those in braces; a dotted key passes
tables without a header, and ends only in one that dotted keys made. -/
def admits (walker : Origin) (atEnd : Bool) : Origin → Bool
  | .braced => false
  | .header => walker != .dotted
  | .implied => walker != .dotted || !atEnd
  | .dotted => true

/-- Changes the table at the end of a path. Tables that are missing on the way are made, with the
walker as their origin. -/
def alter (walker : Origin) (change : Table Node → Except Fault (Table Node)) :
    List String → Table Node → Except Fault (Table Node)
  | [], fields => change fields
  | key :: path, fields =>
      match fields.find? key with
      | none => do
          let inner ← alter walker change path .empty
          return fields.put key (.table walker inner)
      | some (.table origin inner) =>
          if admits walker path.isEmpty origin then do
            let inner ← alter walker change path inner
            return fields.put key (.table origin inner)
          else .error (.closed key)
      | some (.array true items) =>
          match items.getLast? with
          | some (.table origin inner) =>
              if walker == .dotted && path.isEmpty then .error (.closed key)
              else do
                let inner ← alter walker change path inner
                return fields.put key (.array true (items.dropLast ++ [.table origin inner]))
          | _ => .error (.closed key)
      | some _ => .error (.closed key)

def splitLast (first : String) : List String → List String × String
  | [] => ([], first)
  | key :: rest => let (path, final) := splitLast key rest; (first :: path, final)

def set (path : List String) (key : String) (value : Node) (fields : Table Node) :
    Except Fault (Table Node) :=
  alter .dotted (fun fields =>
    match fields.add? key value with
    | some fields => .ok fields
    | none => .error (.repeated key)) path fields

/-- Opens the table of a header. One that so far was only implied keeps what it holds. -/
def openTable (path : List String) (key : String) (root : Table Node) :
    Except Fault (Table Node) :=
  alter .implied (fun fields =>
    match fields.find? key with
    | none => .ok (fields.put key (.table .header .empty))
    | some (.table .implied inner) => .ok (fields.put key (.table .header inner))
    | some _ => .error (.repeated key)) path root

def openItem (path : List String) (key : String) (root : Table Node) :
    Except Fault (Table Node) :=
  let fresh := Node.table .header .empty
  alter .implied (fun fields =>
    match fields.find? key with
    | none => .ok (fields.put key (.array true [fresh]))
    | some (.array true items) => .ok (fields.put key (.array true (items ++ [fresh])))
    | some _ => .error (.repeated key)) path root

/-- The field that stands for a date or time where a value tree is asked for. -/
def momentName : String := "$__toml_private_datetime"

/-- The fields of a table; a date or time counts as one with a single field. -/
def entries? : Node → Option (Table Node)
  | .table _ fields => some fields
  | .moment text => some ⟨[(momentName, .string text)]⟩
  | _ => none

mutual

def isReadable : Node → Bool
  | .tooLarge => false
  | .array _ items => areReadable items
  | .table _ ⟨fields⟩ => entriesReadable fields
  | _ => true

def areReadable : List Node → Bool
  | [] => true
  | item :: rest => item.isReadable && areReadable rest

def entriesReadable : List (String × Node) → Bool
  | [] => true
  | (_, field) :: rest => field.isReadable && entriesReadable rest

end

def sorted {α : Type} (entries : List (String × α)) : Table α :=
  ⟨entries.mergeSort fun a b => !(b.1 < a.1)⟩

mutual

/-- The value tree of a node: fields are sorted by name, what is no finite number is null, and
integers have at most 64 bits. -/
def toValue? : Node → Option Value
  | .string text => some (.string text)
  | .int n => if Word.fits 64 n then some (.int n) else none
  | .float x => some (.float x)
  | .nonFinite => some .null
  | .tooLarge => none
  | .bool b => some (.bool b)
  | .moment text => some (Value.single momentName (.string text))
  | .array _ items => (toValues? items).map .list
  | .table _ ⟨fields⟩ => (toEntries? fields).map fun entries => .object (sorted entries)

def toValues? : List Node → Option (List Value)
  | [] => some []
  | item :: rest => do
      let value ← item.toValue?
      return value :: (← toValues? rest)

def toEntries? : List (String × Node) → Option (List (String × Value))
  | [] => some []
  | (name, field) :: rest => do
      let value ← field.toValue?
      return (name, value) :: (← toEntries? rest)

end

end Node

end RolePlan.Toml
