import RolePlan.Proofs.Role
import RolePlan.Seed

/-!
# Runs of a plan

The calls that change a plan, one after another. Edits concern the roles, the values and the
scaling of a plan; the other steps take over parts of a seed. A call that fails leaves the plan it
has made by then, and the run goes on from there.
-/

namespace RolePlan.Plan

inductive Edit where
  | addRole (ns : String) (role : Template) (filename : String) (overrides : Table Value)
  | removeRole (ns : String)
  | setValue (name : String) (value : Value)
  | withScaling (scaling : Bool)

namespace Edit

def change : Edit → Change Unit
  | addRole ns role filename overrides => Change.mergeRole ns role filename overrides
  | removeRole ns => modify (·.removeRole ns)
  | setValue name value => Change.edit (·.setValue name value)
  | withScaling scaling => modify (·.withScaling scaling)

def run (e : Edit) (p : Plan) : Plan := (e.change.on p).2

def succeeds (e : Edit) (p : Plan) : Bool := (e.change.on p).1.isOk

end Edit

def runEdits (es : List Edit) (p : Plan) : Plan := es.foldl (fun p e => e.run p) p

@[simp] theorem runEdits_nil (p : Plan) : runEdits [] p = p := rfl

@[simp] theorem runEdits_cons (e : Edit) (es : List Edit) (p : Plan) :
    runEdits (e :: es) p = runEdits es (e.run p) := rfl

theorem runEdits_append (es fs : List Edit) (p : Plan) :
    runEdits (es ++ fs) p = runEdits fs (runEdits es p) := by
  rw [runEdits, List.foldl_append]
  rfl

inductive Step where
  | edit (e : Edit)
  | addResources (seed : Template)
  | addParameters (seed : Template)
  | addOutputs (seed : Template)
  | updateReferences (role id : String)

namespace Step

/-- The work of a step, which answers how many references it has replaced. -/
def change : Step → Change Nat
  | edit e => do
      e.change
      return 0
  | addResources seed => do
      Change.edit fun p => do return { p with template := ← Seed.addResources seed p.template }
      return 0
  | addParameters seed => do
      Change.edit fun p => do
        let (template, environment) ← Seed.addParameters seed p.template p.environment
        return { p with template, environment }
      return 0
  | addOutputs seed => do
      Change.edit fun p => do return { p with template := ← Seed.addOutputs seed p.template }
      return 0
  | updateReferences role id => do
      let before ← get
      let (count, template) := Seed.updateReferences before.template role id
      set { before with template }
      return count

def run (s : Step) (p : Plan) : Plan := (s.change.on p).2

end Step

def runSteps (steps : List Step) (p : Plan) : Plan := steps.foldl (fun p s => s.run p) p

end RolePlan.Plan
