import RolePlan.Template
import RolePlan.Yaml.Write

/-!
# Writing templates

`Template.toDocument` gives the sections of a template in their fixed order. Fields that are not
set and sections without entries are left out, save for the resources, which every template has. An
inline resource is written like any other mapping, without its id.
-/

namespace RolePlan

def optionalField (name : String) (value : Option Value) : List (String × Value) :=
  match value with
  | none => []
  | some value => [(name, value)]

def optionalText (name : String) (text : Option String) : List (String × Value) :=
  optionalField name (text.map .string)

def listField (name : String) (items : List Value) : List (String × Value) :=
  if items.isEmpty then [] else [(name, .list items)]

def mappingField (name : String) (fields : Table Value) : List (String × Value) :=
  if fields.isEmpty then [] else [(name, .object fields)]

namespace Constraint

/-- The type comes first. A description takes the place of a type of that very name. -/
def toValue (c : Constraint) : Value :=
  .object (Table.ofList ((c.type, c.definition) :: optionalText "description" c.description))

end Constraint

namespace Parameter

def toValue (p : Parameter) : Value :=
  .object ⟨("type", .string p.type) :: (optionalText "description" p.description ++
    optionalText "label" p.label ++ optionalField "default" p.default ++
    optionalField "hidden" (p.hidden.map .bool) ++
    listField "constraints" (p.constraints.map Constraint.toValue))⟩

end Parameter

namespace ParameterGroup

def toValue (g : ParameterGroup) : Value :=
  .object ⟨("label", .string g.label) :: (optionalText "description" g.description ++
    [("parameters", .list (g.parameters.map .string))])⟩

end ParameterGroup

namespace Resource

mutual

def toValue : Resource → Value
  | ⟨type, metadata, dependsOn, updatePolicy, deletionPolicy, ⟨properties⟩⟩ =>
      .object ⟨("type", .string type) :: (optionalField "metadata" metadata ++
        optionalField "depends_on" dependsOn ++ optionalField "update_policy" updatePolicy ++
        optionalField "deletion_policy" deletionPolicy ++
        mappingField "properties" ⟨propertyValues properties⟩)⟩

def propertyValue : PropertyValue → Value
  | .plain value => value
  | .nested _ resource => toValue resource

def propertyValues : List (String × PropertyValue) → List (String × Value)
  | [] => []
  | (name, property) :: rest => (name, propertyValue property) :: propertyValues rest

end

/-- The same resource with every inline resource written out as a value tree. -/
def expand (r : Resource) : Resource :=
  { r with properties := r.properties.map fun property => .plain (propertyValue property) }

end Resource

namespace Output

def toValue (o : Output) : Value :=
  .object ⟨("value", o.value) :: optionalText "description" o.description⟩

end Output

namespace Template

def expand (t : Template) : Template := { t with resources := t.resources.map Resource.expand }

def toDocument (t : Template) : Table Value :=
  ⟨("heat_template_version", .string t.version) :: (optionalText "description" t.description ++
    mappingField "parameters" (t.parameters.map Parameter.toValue) ++
    listField "parameter_groups" (t.groups.map ParameterGroup.toValue) ++
    [("resources", .object (t.resources.map Resource.toValue))] ++
    mappingField "outputs" (t.outputs.map Output.toValue))⟩

def compose (t : Template) : String := Yaml.write t.toDocument

end Template

end RolePlan
