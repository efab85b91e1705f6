import RolePlan.Document
import RolePlan.Template
import RolePlan.Yaml.Write

/-!
# Environments

An environment gives parameters their values and tells which file defines a registered resource
type. A parameter is added once and may then be set; registering a type again replaces its file.

A reader takes over the values of parameters as they are, null included, and an entry of the
registry must name its file by a text. Both sections are always written, empty or not.
-/

namespace RolePlan

structure Environment where
  parameters : Table Value := .empty
  registry : Table String := .empty

namespace Environment

variable (e : Environment)

def addParameter (name : String) (value : Value) : Except Error Environment := do
  return { e with parameters := ← Template.add .environmentParameter e.parameters name value }

def findParameter (name : String) : Except Error Value :=
  Template.find .environmentParameter e.parameters name

def setParameter (name : String) (value : Value) : Except Error Environment :=
  if e.parameters.contains name then .ok { e with parameters := e.parameters.put name value }
  else .error (.notFound .environmentParameter name)

def removeParameter (name : String) : Option Value × Environment :=
  let (removed, parameters) := e.parameters.take name
  (removed, { e with parameters })

def removeParametersOf (ns : String) : Table Value × Environment :=
  let (removed, parameters) := e.parameters.split (Namespace.owns ns)
  (removed, { e with parameters })

/-- Registers a file for an alias and returns the one it had. -/
def register (name filename : String) : Option String × Environment :=
  (e.registry.find? name, { e with registry := e.registry.put name filename })

def findEntry (name : String) : Except Error String := Template.find .registryEntry e.registry name

def removeEntry (name : String) : Option String × Environment :=
  let (removed, registry) := e.registry.take name
  (removed, { e with registry })

/-- Equality up to the order of parameters, registry entries and object fields. -/
def same (f : Environment) : Bool :=
  e.parameters.sameBy Value.same f.parameters && e.registry.sameBy (· == ·) f.registry

/-! ## Reading -/

def sectionNames : List String := ["parameters", "resource_registry"]

def addValue (entry : String × Value) : Except Error Environment :=
  e.addParameter entry.1 entry.2

def addFile (entry : String × Value) : Except Error Environment :=
  match entry.2 with
  | .string filename => .ok (e.register entry.1 filename).2
  | other => .error (.invalidField .resourceRegistry entry.1 "filename" (.notFilename other))

def ofDocument (document : Table Value) : Except Error Environment := do
  let e ← (← Document.entries document .parameters).foldlM addValue {}
  (← Document.entries document .resourceRegistry).foldlM addFile e

def warnings (document : Table Value) : List Warning :=
  (Document.unknownSections sectionNames document).map .unknownEnvironmentSection

def parse (text : String) : Except Error Environment := do
  ofDocument (← Document.load text)

/-! ## Writing -/

def toDocument : Table Value :=
  ⟨[("parameters", .object e.parameters), ("resource_registry", .object (e.registry.map .string))]⟩

def compose : String := Yaml.write e.toDocument

end Environment

end RolePlan
