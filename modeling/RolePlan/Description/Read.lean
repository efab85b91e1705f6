import RolePlan.Description
import RolePlan.Error
import RolePlan.Placeholder
import RolePlan.Toml.Read

/-!
# Reading descriptions

A description is a TOML document with placeholders. Its records are written as tables, or as lists
with the fields in their order and none left out. Fields that a record does not have are passed
over.
-/

namespace RolePlan.Description

open Toml (Node)

structure Record where
  name : String
  fields : Table Node

namespace Record

/-- The record that a node stands for, given the fields that a record of its kind has. -/
def of (name : String) (known : List String) : Node → Except Error Record
  | .array _ items =>
      if items.length < known.length then .error (.configuration (.missing name))
      else .ok ⟨name, ⟨known.zip items⟩⟩
  | node =>
      match node.entries? with
      | none => .error (.configuration (.unfit name))
      | some fields =>
          if (fields.keep (!known.contains ·)).entries.all (·.2.isReadable) then .ok ⟨name, fields⟩
          else .error (.configuration (.unreadable name))

variable (r : Record)

def fieldName (field : String) : String := r.name ++ "." ++ field

def read? {α : Type} (read : Node → Option α) (field : String) : Except Error (Option α) :=
  match r.fields.find? field with
  | none => .ok none
  | some node =>
      match read node with
      | some value => .ok (some value)
      | none => .error (.configuration (.unfit (r.fieldName field)))

def read {α : Type} (read : Node → Option α) (field : String) : Except Error α := do
  match ← r.read? read field with
  | some value => return value
  | none => throw (.configuration (.missing (r.fieldName field)))

end Record

def text? : Node → Option String
  | .string text => some text
  | _ => none

def truth? : Node → Option Bool
  | .bool b => some b
  | _ => none

def count? : Node → Option Nat
  | .int n => if 0 ≤ n && Word.fits 64 n then some n.toNat else none
  | _ => none

/-- Values by their names, which are sorted. -/
def values? (node : Node) : Option (Table Value) := do
  let fields ← node.entries?
  let entries ← Node.toEntries? fields.entries
  return Node.sorted entries

def ofRole (node : Node) : Except Error Role := do
  let r ← Record.of "roles" ["name", "version", "template", "filename", "parameters"] node
  return {
    name := ← r.read text? "name"
    version := ← r.read count? "version"
    template := ← r.read text? "template"
    filename := ← r.read? text? "filename"
    parameters := ← r.read? values? "parameters" }

def ofOutput (node : Node) : Except Error Output := do
  let r ← Record.of "output" ["path", "template", "environment"] node
  return {
    path := ← r.read text? "path"
    template := ← r.read? text? "template"
    environment := ← r.read? text? "environment" }

def ofSeed (node : Node) : Except Error String := do
  let r ← Record.of "seed" ["template"] node
  r.read text? "template"

def items? : Node → Option (List Node)
  | .array _ items => some items
  | _ => none

def ofDocument (document : Table Node) : Except Error Description := do
  let root ← Record.of "description" ["plan", "seed", "roles", "output"]
    (.table .header document)
  let plan ← Record.of "plan" ["name", "description", "scaling", "parameters"]
    (← root.read some "plan")
  let seed ← (← root.read? some "seed").mapM ofSeed
  let roles ← ((← root.read? items? "roles").getD []).mapM ofRole
  let output ← ofOutput (← root.read some "output")
  return {
    name := ← plan.read text? "name"
    description := ← plan.read? text? "description"
    scaling := ← plan.read? truth? "scaling"
    parameters := ← plan.read? values? "parameters"
    seed, roles, output }

/-- The description that a text stands for, once its placeholders are filled. -/
def parse (known : String → Option String) (text : String) : Except Error Description :=
  match Toml.read (Placeholder.fill known text) with
  | .error fault => .error (.configuration (.syntaxFault fault))
  | .ok document => ofDocument document

end RolePlan.Description
