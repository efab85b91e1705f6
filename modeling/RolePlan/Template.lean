import RolePlan.Error
import RolePlan.Namespace
import RolePlan.Resource

/-!
# Templates

A template declares parameters, groups them, defines resources and names outputs. Parameters,
resources and outputs are kept in the order of their insertion, and no name is given twice.
-/

namespace RolePlan

structure Constraint where
  type : String
  definition : Value
  description : Option String := none

structure Parameter where
  type : String
  description : Option String := none
  label : Option String := none
  default : Option Value := none
  hidden : Option Bool := none
  constraints : List Constraint := []

/-- Parameters that are shown together. No name stands in a group twice. -/
structure ParameterGroup where
  label : String
  description : Option String := none
  parameters : List String := []
  deriving DecidableEq, Repr

structure Output where
  value : Value
  description : Option String := none

structure Template where
  version : String := "2014-10-16"
  description : Option String := none
  parameters : Table Parameter := .empty
  groups : List ParameterGroup := []
  resources : Table Resource := .empty
  outputs : Table Output := .empty

namespace Constraint

def same (a b : Constraint) : Bool :=
  a.type == b.type && a.definition.same b.definition && a.description == b.description

end Constraint

namespace Parameter

/-- What an environment gives a parameter before any value is set: its default, or no text. -/
def initialValue (p : Parameter) : Value := p.default.getD (.string "")

def removeConstraints (p : Parameter) (type : String) : Nat × Parameter :=
  let kept := p.constraints.filter (·.type != type)
  (p.constraints.length - kept.length, { p with constraints := kept })

def same (a b : Parameter) : Bool :=
  a.type == b.type && a.description == b.description && a.label == b.label &&
    Value.sameOptional a.default b.default && a.hidden == b.hidden &&
    a.constraints.length == b.constraints.length &&
    (a.constraints.zip b.constraints).all fun (c, d) => c.same d

end Parameter

namespace ParameterGroup

def contains (g : ParameterGroup) (name : String) : Bool := g.parameters.contains name

/-- Adds a name at the end, unless the group has it. -/
def add (g : ParameterGroup) (name : String) : ParameterGroup :=
  if g.contains name then g else { g with parameters := g.parameters ++ [name] }

def remove (g : ParameterGroup) (name : String) : Bool × ParameterGroup :=
  (g.contains name, { g with parameters := g.parameters.filter (· != name) })

def same (a b : ParameterGroup) : Bool :=
  a.label == b.label && a.description == b.description &&
    a.parameters.length == b.parameters.length && a.parameters.all b.contains

end ParameterGroup

namespace Output

def same (a b : Output) : Bool := a.value.same b.value && a.description == b.description

end Output

namespace Template

def find {α : Type} (item : Item) (table : Table α) (name : String) : Except Error α :=
  match table.find? name with
  | some found => .ok found
  | none => .error (.notFound item name)

def add {α : Type} (item : Item) (table : Table α) (name : String) (value : α) :
    Except Error (Table α) :=
  match table.add? name value with
  | some table => .ok table
  | none => .error (.duplicate item name)

variable (t : Template)

def addParameter (name : String) (p : Parameter) : Except Error Template := do
  return { t with parameters := ← add .parameter t.parameters name p }

def findParameter (name : String) : Except Error Parameter := find .parameter t.parameters name

def removeParameter (name : String) : Option Parameter × Template :=
  let (removed, parameters) := t.parameters.take name
  (removed, { t with parameters })

def removeParametersOf (ns : String) : Table Parameter × Template :=
  let (removed, parameters) := t.parameters.split (Namespace.owns ns)
  (removed, { t with parameters })

def addGroup (g : ParameterGroup) : Template := { t with groups := t.groups ++ [g] }

def findGroup? (label : String) : Option ParameterGroup := t.groups.find? (·.label == label)

def removeGroup (label : String) : Option ParameterGroup × Template :=
  (t.findGroup? label, { t with groups := t.groups.eraseP (·.label == label) })

def addResource (id : String) (r : Resource) : Except Error Template := do
  return { t with resources := ← add .resource t.resources id r }

def findResource (id : String) : Except Error Resource := find .resource t.resources id

def removeResource (id : String) : Option Resource × Template :=
  let (removed, resources) := t.resources.take id
  (removed, { t with resources })

/-- Works on a resource in its place, if it is there, and tells what the work answers. -/
def onResource? {β : Type} (id : String) (work : Resource → β × Resource) :
    Option (β × Template) :=
  (t.resources.find? id).map fun r =>
    let (answer, r) := work r
    (answer, { t with resources := t.resources.put id r })

def addOutput (name : String) (o : Output) : Except Error Template := do
  return { t with outputs := ← add .output t.outputs name o }

def findOutput (name : String) : Except Error Output := find .output t.outputs name

def removeOutput (name : String) : Option Output × Template :=
  let (removed, outputs) := t.outputs.take name
  (removed, { t with outputs })

def removeOutputsOf (ns : String) : Table Output × Template :=
  let (removed, outputs) := t.outputs.split (Namespace.owns ns)
  (removed, { t with outputs })

/-- Equality up to the order of parameters, resources, outputs, group members, properties and
object fields. The order of groups and of constraints counts. -/
def same (u : Template) : Bool :=
  t.version == u.version && t.description == u.description &&
    t.parameters.sameBy Parameter.same u.parameters &&
    t.groups.length == u.groups.length && (t.groups.zip u.groups).all (fun (g, h) => g.same h) &&
    t.resources.sameBy Resource.same u.resources && t.outputs.sameBy Output.same u.outputs

end Template

end RolePlan
