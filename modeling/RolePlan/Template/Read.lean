import RolePlan.Document
import RolePlan.Template

/-!
# Reading templates

`Template.ofDocument` accepts a document section by section: parameters, groups, resources and then
outputs. The first fault in that order is reported. Sections and fields it does not know are passed
over.
-/

namespace RolePlan.Template

open Document (Entry)

def sectionNames : List String :=
  ["heat_template_version", "description", "parameters", "parameter_groups", "resources",
    "outputs"]

/-- A constraint has one field besides its description: its type, with the definition. -/
def readConstraint (parameter : String) (value : Value) : Except Error Constraint := do
  let fields ← match value with
    | .object fields => pure fields
    | other => throw (.constraint parameter (.notMapping other.kind))
  let description ← match fields.find? "description" with
    | none | some .null => pure none
    | some (.string text) => pure (some text)
    | some other => throw (.constraint parameter (.descriptionShape other.kind))
  match (fields.eraseBySwap "description").entries with
  | [(type, definition)] => return { type, definition, description }
  | others => throw (.constraint parameter (.typeCount (others.map (·.1))))

def readType (e : Entry) : Except Error String :=
  match e.fields.find? "type" with
  | some (.string type) => .ok type
  | some other => e.invalid "type" (.shape .string other.kind)
  | none => e.missing "type"

def readParameter (name : String) (value : Value) : Except Error Parameter := do
  let e ← Entry.of .parameters name value
  let type ← readType e
  let description ← e.text? "description"
  let label ← e.text? "label"
  let hidden ← e.bool? "hidden"
  let constraints ← (← e.list "constraints").mapM (readConstraint name)
  return { type, description, label, default := e.value? "default", hidden, constraints }

def readMember (e : Entry) (g : ParameterGroup) (value : Value) : Except Error ParameterGroup :=
  match value.scalarText? with
  | some name => .ok (g.add name)
  | none => e.invalid "parameters" (.memberNotScalar value.kind)

def readGroup (index : Nat) (value : Value) : Except Error ParameterGroup := do
  let e ← Entry.of .parameterGroups ("#" ++ toString index) value
  let label ← e.text "label"
  let description ← e.text? "description"
  (← e.list "parameters").foldlM (readMember e) { label, description }

def readResource (id : String) (value : Value) : Except Error Resource := do
  let e ← Entry.of .resources id value
  let type ← e.text "type"
  let properties ← e.mapping "properties"
  return {
    type
    metadata := e.value? "metadata"
    dependsOn := e.value? "depends_on"
    updatePolicy := e.value? "update_policy"
    deletionPolicy := e.value? "deletion_policy"
    properties := (Table.ofList properties).map .plain }

/-- The value of an output must be there, and may be null. -/
def readOutput (name : String) (value : Value) : Except Error Output := do
  let e ← Entry.of .outputs name value
  match e.fields.find? "value" with
  | none => e.missing "value"
  | some value => return { value, description := ← e.text? "description" }

/-- Reads every entry of a section and adds it under its name. -/
def readEntries {α : Type} (item : Item) (read : String → Value → Except Error α)
    (entries : List (String × Value)) : Except Error (Table α) :=
  entries.foldlM (fun table entry => do add item table entry.1 (← read entry.1 entry.2)) .empty

def readVersion (document : Table Value) : String :=
  ((document.find? "heat_template_version").bind Value.scalarText?).getD
    ({} : Template).version

def ofDocument (document : Table Value) : Except Error Template := do
  let root : Entry := ⟨.template, "<root>", document⟩
  let description ← root.text? "description"
  let parameters ← readEntries .parameter readParameter (← Document.entries document .parameters)
  let groups ← (← Document.items document .parameterGroups).zipIdx.mapM fun (value, index) =>
    readGroup index value
  let resources ← readEntries .resource readResource (← Document.entries document .resources)
  let outputs ← readEntries .output readOutput (← Document.entries document .outputs)
  return {
    version := readVersion document, description, parameters, groups, resources, outputs }

def warnings (document : Table Value) : List Warning :=
  (Document.unknownSections sectionNames document).map .unknownTemplateSection

def parse (text : String) : Except Error Template := do
  ofDocument (← Document.load text)

end RolePlan.Template
