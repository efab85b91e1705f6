import RolePlan.Proofs.Run
import RolePlan.Proofs.Seed

/-!
# Template and environment in step

The parameters of the template and those of the environment bear the same names in the same order.
Every elementary change keeps this, so that work that stops halfway keeps it as well.
-/

namespace RolePlan.Plan

def InStep (p : Plan) : Prop := p.template.parameters.names = p.environment.parameters.names

theorem inStep_empty : ({} : Plan).InStep := rfl

theorem InStep.withParameters {p : Plan} (h : p.InStep) (entries : List (String × Parameter)) :
    (p.withParameters entries).InStep := by
  rw [InStep, Plan.withParameters, Table.names_extend, Table.names_extend, map_fst_firstValues]
  exact congrArg (· ++ _) h

/-- A declaration fails at its first half or not at all. -/
theorem keeps_declare (name : String) (parameter : Parameter) :
    Change.Keeps InStep (Change.declare name parameter) := by
  intro p hp
  by_cases hm : name ∈ p.template.parameters.names
  · have hfail : (Change.edit fun p => do
        return { p with template := ← p.template.addParameter name parameter }).on p =
          (.error (.duplicate .parameter name), p) := by
      apply Change.on_edit_of_error
      rw [Template.addParameter, Template.add_of_mem hm]
      rfl
    rw [Change.declare, Change.on_bind, hfail]
    exact hp
  · rw [on_declare hm (hp ▸ hm)]
    exact hp.withParameters _

/-- An edit of the template that leaves its parameters alone. -/
private theorem keeps_editBeside {f : Template → Except Error Template}
    (h : ∀ t u, f t = .ok u → u.parameters = t.parameters) :
    Change.Keeps InStep (Change.edit fun p => do return { p with template := ← f p.template }) :=
  Change.keeps_editTemplate fun _ _ hp hu => (congrArg Table.names (h _ _ hu)).trans hp

theorem keeps_mergeResource (id : String) (resource : Resource) :
    Change.Keeps InStep (Change.mergeResource id resource) := by
  refine keeps_editBeside (f := (·.addResource id resource)) fun t u h => ?_
  obtain ⟨-, rfl⟩ := Template.eq_of_addResource h
  rfl

theorem keeps_mergeOutput (ns id : String) (entry : String × Output) :
    Change.Keeps InStep (Change.mergeOutput ns id entry) := by
  refine keeps_editBeside (f := (·.addOutput (Namespace.apply ns entry.1)
    (passedOutput id entry.1 entry.2))) fun t u h => ?_
  obtain ⟨-, rfl⟩ := Template.eq_of_addOutput h
  rfl

theorem InStep.removeRole {p : Plan} (h : p.InStep) (ns : String) : (p.removeRole ns).InStep := by
  rw [removeRole_eq, InStep, Table.names_keep, Table.names_keep]
  exact congrArg (List.filter _) h

/-! ## Steps and runs -/

theorem Edit.keeps_change (e : Edit) : Change.Keeps InStep e.change := by
  cases e with
  | addRole ns role filename overrides =>
      exact Change.keeps_mergeRole (fun entry _ => keeps_declare _ entry.2) (keeps_declare _ _)
        (fun _ => keeps_mergeResource _ _) (fun _ entry _ => keeps_mergeOutput _ _ entry)
        fun _ hp => hp
  | removeRole ns => exact Change.keeps_modify fun _ hp => hp.removeRole ns
  | withScaling scaling => exact Change.keeps_modify fun _ hp => hp
  | setValue name value =>
      refine Change.keeps_edit fun p q hp hq => ?_
      by_cases hm : p.environment.parameters.contains name = true
      · rw [Plan.setValue, Environment.setParameter, if_pos hm] at hq
        cases hq
        exact hp.trans (Table.names_put_of_mem (Table.contains_iff_mem_names.mp hm) value).symm
      · rw [Plan.setValue, Environment.setParameter, if_neg hm] at hq
        cases hq

theorem Step.keeps_change (s : Step) : Change.Keeps InStep s.change := by
  cases s with
  | edit e => exact e.keeps_change.bind fun _ => Change.keeps_pure _
  | addResources seed =>
      refine (keeps_editBeside fun t u h => ?_).bind fun _ => Change.keeps_pure _
      obtain ⟨v, hv, hp⟩ := Seed.exists_addResources seed t
      rw [h] at hv
      cases hv
      exact hp
  | addOutputs seed =>
      refine (keeps_editBeside fun t u h => ?_).bind fun _ => Change.keeps_pure _
      obtain ⟨v, hv, hp⟩ := Seed.exists_addOutputs seed t
      rw [h] at hv
      cases hv
      exact hp
  | addParameters seed =>
      refine (Change.keeps_edit fun p q hp hq => ?_).bind fun _ => Change.keeps_pure _
      obtain ⟨target, ht, hin⟩ := Seed.exists_addParameters seed hp
      rw [ht] at hq
      cases hq
      exact hin
  | updateReferences role id => exact fun p hp => hp

/-- After any steps whatever, failed ones among them, the template and the environment list the
same parameters in the same order. -/
theorem inStep_runSteps (steps : List Step) :
    let p := runSteps steps {}
    p.template.parameters.names = p.environment.parameters.names := by
  suffices h : ∀ p : Plan, p.InStep → (runSteps steps p).InStep from h {} inStep_empty
  intro p hp
  induction steps generalizing p with
  | nil => exact hp
  | cons s rest ih => exact ih _ (s.keeps_change p hp)

end RolePlan.Plan
