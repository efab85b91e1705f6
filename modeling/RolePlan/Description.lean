import RolePlan.Namespace
import RolePlan.Value

/-!
# Descriptions of plans

A description says which roles a plan has, which seed surrounds them, which values are set, and
where the composed documents are kept.
-/

namespace RolePlan

namespace Description

structure Role where
  name : String
  version : Nat
  template : String
  filename : Option String := none
  parameters : Option (Table Value) := none

namespace Role

variable (r : Role)

def ns : String := r.name ++ "-" ++ toString r.version

def registryFilename : String := r.filename.getD ("provider-" ++ r.ns ++ ".yaml")

def values : List (String × Value) :=
  (r.parameters.getD .empty).entries.map fun (name, value) => (Namespace.apply r.ns name, value)

end Role

structure Output where
  path : String
  template : Option String := none
  environment : Option String := none

namespace Output

variable (o : Output)

/-- A file in the folder of the output, however many slashes end the folder's path. -/
def file (name : String) : String :=
  String.ofList (o.path.toList.reverse.dropWhile (· = '/')).reverse ++ "/" ++ name

def templatePath : String := o.file (o.template.getD "plan.yaml")

def environmentPath : String := o.file (o.environment.getD "environment.yaml")

end Output

end Description

structure Description where
  name : String
  description : Option String := none
  scaling : Option Bool := none
  /-- Values that are set under their full names. -/
  parameters : Option (Table Value) := none
  /-- The path of the seed. -/
  seed : Option String := none
  roles : List Description.Role := []
  output : Description.Output

namespace Description

/-- Roles are wrapped in groups, unless the description says otherwise. -/
def scalingEnabled (d : Description) : Bool := d.scaling.getD true

end Description

end RolePlan
