import RolePlan.Plan
import RolePlan.Proofs.Except

/-!
# Work on a plan in place

What the parts of a change do one after another, and which properties of a plan a change keeps,
whether it succeeds or stops halfway.
-/

namespace RolePlan.Plan.Change

variable {α β γ : Type} {p q : Plan}

@[simp] theorem on_pure (a : α) (p : Plan) : (pure a : Change α).on p = (.ok a, p) := rfl

@[simp] theorem on_throw (e : Error) (p : Plan) : (throw e : Change α).on p = (.error e, p) := rfl

@[simp] theorem on_get (p : Plan) : (get : Change Plan).on p = (.ok p, p) := rfl

@[simp] theorem on_modify (f : Plan → Plan) (p : Plan) :
    (modify f : Change Unit).on p = (.ok (), f p) := rfl

theorem on_bind (c : Change α) (f : α → Change β) (p : Plan) :
    (c >>= f).on p =
      match c.on p with
      | (.ok a, q) => (f a).on q
      | (.error e, q) => (.error e, q) := by
  simp only [on, ExceptT.run_bind, StateT.run_bind, Id.run]
  rcases StateT.run (ExceptT.run c) p with ⟨r, q⟩
  cases r <;> rfl

theorem on_bind_of_ok {c : Change α} {a : α} (h : c.on p = (.ok a, q)) (f : α → Change β) :
    (c >>= f).on p = (f a).on q := by
  rw [on_bind, h]

theorem on_edit_of_ok {f : Plan → Except Error Plan} (h : f p = .ok q) :
    (edit f).on p = (.ok (), q) := by
  rw [edit, on_bind_of_ok (on_get p), h]
  rfl

theorem on_edit_of_error {f : Plan → Except Error Plan} {e : Error} (h : f p = .error e) :
    (edit f).on p = (.error e, p) := by
  rw [edit, on_bind_of_ok (on_get p), h]
  rfl

theorem on_forM_cons_of_ok {f : γ → Change Unit} {item : γ} (h : (f item).on p = (.ok (), q))
    (rest : List γ) : ((item :: rest).forM f).on p = (rest.forM f).on q :=
  on_bind_of_ok h fun _ => rest.forM f

/-! ## What a change keeps -/

/-- The plan that the change leaves has the property if the plan before it had, even where the
change fails on its way. -/
def Keeps (P : Plan → Prop) (c : Change α) : Prop := ∀ p, P p → P (c.on p).2

variable {P : Plan → Prop}

theorem keeps_pure (a : α) : Keeps P (pure a : Change α) := fun _ hp => hp

theorem keeps_throw (e : Error) : Keeps P (throw e : Change α) := fun _ hp => hp

theorem keeps_get : Keeps P (get : Change Plan) := fun _ hp => hp

theorem keeps_modify {f : Plan → Plan} (h : ∀ p, P p → P (f p)) :
    Keeps P (modify f : Change Unit) := h

theorem keeps_edit {f : Plan → Except Error Plan} (h : ∀ p q, P p → f p = .ok q → P q) :
    Keeps P (edit f) := by
  intro p hp
  cases hf : f p with
  | error e => rwa [on_edit_of_error hf]
  | ok q =>
      rw [on_edit_of_ok hf]
      exact h p q hp hf

theorem Keeps.bind {c : Change α} {f : α → Change β} (hc : Keeps P c) (hf : ∀ a, Keeps P (f a)) :
    Keeps P (c >>= f) := by
  intro p hp
  have hq := hc p hp
  rw [on_bind]
  generalize c.on p = r at hq ⊢
  match r with
  | (.error e, q) => exact hq
  | (.ok a, q) => exact hf a q hq

theorem Keeps.ite {c d : Change α} {b : Prop} [Decidable b] (hc : Keeps P c) (hd : Keeps P d) :
    Keeps P (if b then c else d) := by
  split
  · exact hc
  · exact hd

theorem keeps_forM {f : γ → Change Unit} {items : List γ} (h : ∀ item ∈ items, Keeps P (f item)) :
    Keeps P (items.forM f) := by
  induction items with
  | nil => exact keeps_pure _
  | cons item rest ih =>
      exact (h item List.mem_cons_self).bind fun _ =>
        ih fun other ho => h other (List.mem_cons_of_mem item ho)

/-! ## What adding a role keeps -/

/-- An edit of the template alone. -/
theorem keeps_editTemplate {f : Template → Except Error Template}
    (h : ∀ p t, P p → f p.template = .ok t → P { p with template := t }) :
    Keeps P (edit fun p => do return { p with template := ← f p.template }) := by
  refine keeps_edit fun p q hp hq => ?_
  obtain ⟨t, hf, hq⟩ := Proofs.bind_eq_ok hq
  cases hq
  exact h p t hp hf

/-- What each part of adding a role keeps is kept by the whole. -/
theorem keeps_mergeRole {ns filename : String} {role : Template} {overrides : Table Value}
    (hparameters : ∀ entry ∈ role.parameters.entries,
      Keeps P (declare (Namespace.apply ns entry.1) entry.2))
    (hcount : Keeps P (declare (Namespace.countName ns) countParameter))
    (hresource : ∀ before : Plan,
      Keeps P (mergeResource (before.roleId ns) (before.roleEntry ns role overrides)))
    (houtputs : ∀ before : Plan, ∀ entry ∈ role.outputs.entries,
      Keeps P (mergeOutput ns (before.roleId ns) entry))
    (hregister : ∀ p, P p → P { p with
      environment := (p.environment.register (Namespace.aliasOf ns) filename).2 }) :
    Keeps P (mergeRole ns role filename overrides) := by
  refine keeps_get.bind fun before => ?_
  refine Keeps.ite (keeps_throw _) (Keeps.ite (keeps_throw _) ?_)
  refine Keeps.bind (keeps_forM fun entry he => ?_) fun _ => ?_
  · exact Keeps.ite (keeps_pure _) (hparameters entry he)
  · refine Keeps.bind (Keeps.ite hcount (keeps_pure _)) fun _ => ?_
    refine (hresource before).bind fun _ => ?_
    refine (keeps_forM fun entry he => houtputs before entry he).bind fun _ => ?_
    exact keeps_modify hregister

end RolePlan.Plan.Change
