import RolePlan.Environment
import RolePlan.Template.Read
import RolePlan.Template.Write

/-!
# Plans

A plan is a master template and an environment that change together. Adding a role puts the role's
parameters, a resource of its registered type and its outputs under the role's namespace; removing
it takes away all that the namespace owns. With scaling, the resource of a role is wrapped in a
group whose size is a parameter. Adding works in place, one entry after another, after the checks
that must rule out a failure halfway.
-/

namespace RolePlan

structure Plan where
  template : Template := {}
  environment : Environment := {}
  /-- Roles that are added are wrapped in groups. -/
  scaling : Bool := true

namespace Plan

variable (p : Plan)

def ofTexts (template environment : String) : Except Error Plan := do
  let template ← Template.parse template
  let environment ← Environment.parse environment
  return { template, environment }

def compose : String × String := (p.template.compose, p.environment.compose)

def withScaling (scaling : Bool) : Plan := { p with scaling }

def roleId (ns : String) : String :=
  if p.scaling then Namespace.groupId ns else Namespace.resourceId ns

def roleNamespaces : List String := p.environment.registry.names.filterMap Namespace.ofAlias?

/-- Nothing in the plan bears a name that belongs to the namespace. -/
def isFree (ns : String) : Bool :=
  !(p.environment.registry.contains (Namespace.aliasOf ns) ||
    p.template.resources.contains (Namespace.resourceId ns) ||
    p.template.resources.contains (Namespace.groupId ns) ||
    p.template.parameters.names.any (Namespace.owns ns) ||
    p.environment.parameters.names.any (Namespace.owns ns) ||
    p.template.outputs.names.any (Namespace.owns ns))

def lookup (name : String) : Value := .single "get_param" (.string name)

def attributeOf (id name : String) : Value := .single "get_attr" (.list [.string id, .string name])

def countParameter : Parameter :=
  { type := "number"
    default := some (.int 1)
    constraints := [{ type := "range", definition := .single "min" (.int 1) }] }

/-- What a role is given for one of its parameters: the value that overrides it, or a look-up of
the parameter's name in the namespace. -/
def argument (ns : String) (overrides : Table Value) (name : String) : Value :=
  (overrides.find? name).getD (lookup (Namespace.apply ns name))

/-- The resource that stands for a role, with one property for each of the role's parameters. -/
def roleResource (ns : String) (role : Template) (overrides : Table Value) : Resource :=
  { type := Namespace.aliasOf ns
    properties := ⟨role.parameters.names.map fun name =>
      (name, .plain (argument ns overrides name))⟩ }

def groupAround (ns id : String) (member : Resource) : Resource :=
  { type := Resource.groupType
    properties := ⟨[(Resource.countName, .plain (lookup (Namespace.countName ns))),
      (Resource.definitionName, .nested id member)]⟩ }

def passedOutput (id name : String) (output : Output) : Output :=
  { value := attributeOf id name, description := output.description }

def roleEntry (ns : String) (role : Template) (overrides : Table Value) : Resource :=
  let member := roleResource ns role overrides
  if p.scaling then groupAround ns (p.roleId ns) member else member

/-- The role declares a parameter of its own that the size of its group would collide with. -/
def countClashes (role : Template) (overrides : Table Value) : Bool :=
  p.scaling && (role.parameters.contains Resource.countName &&
    !overrides.contains Resource.countName)

/-- Work on a plan in place. Where it fails, what it did before stays done. -/
abbrev Change (α : Type) : Type := ExceptT Error (StateM Plan) α

namespace Change

def on {α : Type} (c : Change α) (p : Plan) : Except Error α × Plan := (c.run.run p).run

/-- An elementary change, which is made in full or not at all. -/
def edit (f : Plan → Except Error Plan) : Change Unit := do
  match f (← get) with
  | .ok p => set p
  | .error e => throw e

def declare (name : String) (parameter : Parameter) : Change Unit := do
  edit fun p => do return { p with template := ← p.template.addParameter name parameter }
  edit fun p => do
    return { p with environment := ← p.environment.addParameter name parameter.initialValue }

def mergeParameter (ns : String) (overrides : Table Value) (entry : String × Parameter) :
    Change Unit :=
  if overrides.contains entry.1 then pure ()
  else declare (Namespace.apply ns entry.1) entry.2

def mergeCount (scaling : Bool) (ns : String) : Change Unit :=
  if scaling then declare (Namespace.countName ns) countParameter else pure ()

def mergeResource (id : String) (resource : Resource) : Change Unit :=
  edit fun p => do return { p with template := ← p.template.addResource id resource }

def mergeOutput (ns id : String) (entry : String × Output) : Change Unit :=
  edit fun p => do
    return { p with
      template := ← p.template.addOutput (Namespace.apply ns entry.1)
        (passedOutput id entry.1 entry.2) }

/-- Adds the parts of a role in turn to what was the plan `before`. -/
def mergeParts (before : Plan) (ns : String) (role : Template) (filename : String)
    (overrides : Table Value) : Change Unit := do
  role.parameters.entries.forM (mergeParameter ns overrides)
  mergeCount before.scaling ns
  mergeResource (before.roleId ns) (before.roleEntry ns role overrides)
  role.outputs.entries.forM (mergeOutput ns (before.roleId ns))
  modify fun p =>
    { p with environment := (p.environment.register (Namespace.aliasOf ns) filename).2 }

/-- Adds a role under a namespace that must be free. Parameters that `overrides` names are not
declared; their values are written into the role's resource. -/
def mergeRole (ns : String) (role : Template) (filename : String) (overrides : Table Value) :
    Change Unit := do
  let before ← get
  if !before.isFree ns then throw (.duplicate .namespaceName ns)
  else if before.countClashes role overrides then
    throw (.duplicate .parameter (Namespace.countName ns))
  else mergeParts before ns role filename overrides

end Change

def addRole (ns : String) (role : Template) (filename : String)
    (overrides : Table Value := .empty) : Except Error Plan :=
  match (Change.mergeRole ns role filename overrides).on p with
  | (.ok _, p) => .ok p
  | (.error e, _) => .error e

/-- Takes away everything that the namespace owns; where there is nothing, nothing happens. Both
ids that a role's resource can have are removed, whether or not scaling is on now. -/
def removeRole (ns : String) : Plan :=
  let template := p.template
  let template := (template.removeParametersOf ns).2
  let template := (template.removeOutputsOf ns).2
  let template := (template.removeResource (Namespace.resourceId ns)).2
  let template := (template.removeResource (Namespace.groupId ns)).2
  let environment := (p.environment.removeParametersOf ns).2
  let environment := (environment.removeEntry (Namespace.aliasOf ns)).2
  { p with template, environment }

def setValue (name : String) (value : Value) : Except Error Plan := do
  return { p with environment := ← p.environment.setParameter name value }

def same (q : Plan) : Bool :=
  p.template.same q.template && p.environment.same q.environment && p.scaling == q.scaling

end Plan

end RolePlan
