import RolePlan.Value

/-!
# Resources

A resource has a type and named properties. A property is a value tree, or a resource written
inline, such as the member definition of a group.
-/

namespace RolePlan

mutual

structure Resource where
  type : String
  metadata : Option Value := none
  dependsOn : Option Value := none
  updatePolicy : Option Value := none
  deletionPolicy : Option Value := none
  properties : Table PropertyValue := .empty

inductive PropertyValue where
  | plain (value : Value)
  | nested (id : String) (resource : Resource)

end

instance : Inhabited PropertyValue := ⟨.plain .null⟩

instance : Inhabited Resource := ⟨{ type := "" }⟩

namespace Value

def sameOptional : Option Value → Option Value → Bool
  | none, none => true
  | some a, some b => a.same b
  | _, _ => false

end Value

namespace Resource

def definitionName : String := "resource_def"

def countName : String := "count"

def groupType : String := "OS::Heat::ResourceGroup"

def groupTypes : List String := [groupType, "OS::Heat::AutoScalingGroup"]

def setProperty (r : Resource) (name : String) (value : PropertyValue) : Resource :=
  { r with properties := r.properties.put name value }

def putProperty (r : Resource) (name : String) (value : PropertyValue) :
    Option PropertyValue × Resource :=
  (r.properties.find? name, r.setProperty name value)

def removeProperty (r : Resource) (name : String) : Option PropertyValue × Resource :=
  let (removed, properties) := r.properties.take name
  (removed, { r with properties })

mutual

/-- Equality up to the order of properties and of object fields. -/
def same (a b : Resource) : Bool :=
  match a, b with
  | ⟨type, metadata, dependsOn, updatePolicy, deletionPolicy, ⟨properties⟩⟩, b =>
      type == b.type && Value.sameOptional metadata b.metadata &&
        Value.sameOptional dependsOn b.dependsOn &&
        Value.sameOptional updatePolicy b.updatePolicy &&
        Value.sameOptional deletionPolicy b.deletionPolicy &&
        properties.length == b.properties.size && sameProperties properties b.properties.entries

def sameProperty : PropertyValue → PropertyValue → Bool
  | .plain a, .plain b => a.same b
  | .nested id a, .nested id' b => id == id' && same a b
  | _, _ => false

def sameProperties :
    List (String × PropertyValue) → List (String × PropertyValue) → Bool
  | [], _ => true
  | (name, a) :: rest, others =>
      (match others.lookup name with
        | some b => sameProperty a b
        | none => false) && sameProperties rest others

end

end Resource

end RolePlan
