import RolePlan.Description
import RolePlan.Plan
import RolePlan.Seed
import RolePlan.Storage

/-!
# Composing described plans

`build` makes the plan of a description from the templates in a storage; `run` also stores the
composed texts, and `remove` takes a role out of the plan that is stored. Texts are written only
after everything else has succeeded, the template first.
-/

namespace RolePlan.Description

/-- What a stored plan contains, and where it is stored. -/
structure Summary where
  roles : Nat
  parameters : Nat
  resources : Nat
  outputs : Nat
  registryEntries : Nat
  templatePath : String
  environmentPath : String
  deriving DecidableEq, Repr

/-- The plan holds a role whose values are those that the description sets. -/
def Role.addTo (r : Role) (template : Template) (fixed : Option (Table Value)) (p : Plan) :
    Except Error Plan := do
  let p ← p.addRole r.ns template r.registryFilename (fixed.getD .empty)
  r.values.foldlM (fun p entry => p.setValue entry.1 entry.2) p

def inject (seed : Template) (p : Plan) : Except Error Plan := do
  let template ← Seed.addResources seed p.template
  let (template, environment) ← Seed.addParameters seed template p.environment
  let template ← Seed.addOutputs seed template
  return { p with template, environment }

/-- What names a role in the seed comes to name its resource in the plan. -/
def Role.connect (r : Role) (seed : Template) (p : Plan) : Plan :=
  match Seed.findRole? seed r.name with
  | none => p
  | some (id, _) =>
      { p with template := (Seed.updateReferences p.template id (p.roleId r.ns)).2 }

variable {m : Type → Type} [Monad m]

/-- The template that a text describes; the warnings about it are passed on. -/
def templateOf (text : String) : Job m Template := do
  let document ← Job.ofExcept (Document.load text)
  (Template.warnings document).forM Job.warn
  Job.ofExcept (Template.ofDocument document)

def environmentOf (text : String) : Job m Environment := do
  let document ← Job.ofExcept (Document.load text)
  (Environment.warnings document).forM Job.warn
  Job.ofExcept (Environment.ofDocument document)

variable [Storage m]

def readTemplate (path : String) : Job m Template := do templateOf (← Job.read path)

variable (d : Description)

def emptyPlan : Plan :=
  { template := { description := d.description }, scaling := d.scalingEnabled }

def addRole (seed : Option Template) (p : Plan) (r : Role) : Job m Plan := do
  let template ← readTemplate r.template
  let fixed ← match seed with
    | none => pure none
    | some seed => Job.ofExcept (Seed.fixedProperties? seed r.name)
  Job.ofExcept (r.addTo template fixed p)

/-- Warns of a role that the seed does not know, and connects one that it knows. -/
def connectRole (seed : Template) (p : Plan) (r : Role) : Job m Plan := do
  if (Seed.findRole? seed r.name).isNone then Job.warn (.roleNotInSeed r.name)
  return r.connect seed p

def build : Job m Plan := do
  let seed ← d.seed.mapM readTemplate
  let p ← d.roles.foldlM (addRole seed) d.emptyPlan
  let p ← match seed with
    | none => pure p
    | some seed => d.roles.foldlM (connectRole seed) (← Job.ofExcept (inject seed p))
  Job.ofExcept ((d.parameters.getD .empty).entries.foldlM
    (fun p entry => p.setValue entry.1 entry.2) p)

def store (p : Plan) : Job m Summary := do
  let (template, environment) := p.compose
  Job.write d.output.templatePath template
  Job.write d.output.environmentPath environment
  return {
    roles := p.roleNamespaces.length
    parameters := p.template.parameters.size
    resources := p.template.resources.size
    outputs := p.template.outputs.size
    registryEntries := p.environment.registry.size
    templatePath := d.output.templatePath
    environmentPath := d.output.environmentPath }

def run : Job m Summary := do d.store (← d.build)

def load : Job m Plan := do
  if !(← Job.holds d.output.templatePath) then
    throw (.notFound .planTemplate d.output.templatePath)
  let templateText ← Job.read d.output.templatePath
  let environmentText ← Job.read d.output.environmentPath
  let template ← templateOf templateText
  let environment ← environmentOf environmentText
  return { template, environment, scaling := d.scalingEnabled }

def remove (ns : String) : Job m Summary := do
  let p ← d.load
  if !p.roleNamespaces.contains ns then Job.warn (.notInPlan ns)
  d.store (p.removeRole ns)

end RolePlan.Description
