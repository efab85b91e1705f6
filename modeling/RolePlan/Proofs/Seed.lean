import RolePlan.Proofs.Except
import RolePlan.Proofs.Template
import RolePlan.Seed

/-!
# Taking over parts of a seed

None of the copying from a seed fails, since a name is looked up before it is added, and each
function changes no other table than its own.
-/

namespace RolePlan.Seed

theorem exists_addResources (seed t : Template) :
    ∃ u, addResources seed t = .ok u ∧ u.parameters = t.parameters := by
  refine Proofs.exists_foldlM (P := fun u : Template => u.parameters = t.parameters) ?_ rfl
  intro u entry _ hu
  unfold addResource
  split
  · exact ⟨u, rfl, hu⟩
  · next h =>
      rw [Bool.or_eq_true, not_or, Table.contains_iff_mem_names] at h
      exact ⟨_, Template.addResource_of_not_mem h.2 entry.2, hu⟩

theorem exists_addOutputs (seed t : Template) :
    ∃ u, addOutputs seed t = .ok u ∧ u.parameters = t.parameters := by
  refine Proofs.exists_foldlM (P := fun u : Template => u.parameters = t.parameters) ?_ rfl
  intro u entry _ hu
  unfold addOutput
  split
  · exact ⟨u, rfl, hu⟩
  · next h =>
      rw [Table.contains_iff_mem_names] at h
      exact ⟨_, Template.addOutput_of_not_mem h entry.2, hu⟩

/-- A parameter that is copied goes to the end of both documents, if they were in step. -/
theorem addParameter_inStep (excluded : List String) {t : Template} {e : Environment}
    (h : t.parameters.names = e.parameters.names) (entry : String × Parameter) :
    ∃ target, addParameter excluded (t, e) entry = .ok target ∧
      target.1.parameters.names = target.2.parameters.names := by
  by_cases hc : (excluded.contains entry.1 || t.parameters.contains entry.1) = true
  · exact ⟨(t, e), by rw [addParameter, if_pos hc], h⟩
  · have hskip := hc
    simp only [Bool.or_eq_true, not_or, Table.contains_iff_mem_names] at hc
    have he : entry.1 ∉ e.parameters.names := h ▸ hc.2
    have hno : ¬ e.parameters.contains entry.1 = true := by rwa [Table.contains_iff_mem_names]
    refine ⟨({ t with parameters := t.parameters.extend [(entry.1, entry.2)] },
      { e with parameters := e.parameters.extend [(entry.1, entry.2.initialValue)] }), ?_, ?_⟩
    · rw [addParameter, if_neg hskip, Template.addParameter_of_not_mem hc.2]
      simp only [Environment.addParameter_of_not_mem he, if_neg hno, bind, Except.bind]
      rfl
    · simp [h]

theorem exists_addParameters (seed : Template) {t : Template} {e : Environment}
    (h : t.parameters.names = e.parameters.names) :
    ∃ target, addParameters seed t e = .ok target ∧
      target.1.parameters.names = target.2.parameters.names :=
  Proofs.exists_foldlM (P := fun target : Template × Environment =>
    target.1.parameters.names = target.2.parameters.names)
    (fun target entry _ ht => addParameter_inStep _ (t := target.1) (e := target.2) ht entry) h

/-! ## In any plan -/

/-- A parameter is copied or skipped, whatever is there already. -/
theorem exists_addParameter (excluded : List String) (target : Template × Environment)
    (entry : String × Parameter) :
    ∃ next, addParameter excluded target entry = .ok next ∧
      ∀ name, name ∈ next.1.parameters.names ↔
        name ∈ target.1.parameters.names ∨ (name = entry.1 ∧ name ∉ excluded) := by
  obtain ⟨t, e⟩ := target
  by_cases hskip : (excluded.contains entry.1 || t.parameters.contains entry.1) = true
  · refine ⟨(t, e), by rw [addParameter, if_pos hskip], fun name => ⟨.inl, ?_⟩⟩
    rw [Bool.or_eq_true, Table.contains_iff_mem_names, List.contains_iff_mem] at hskip
    rintro (hm | ⟨rfl, hne⟩)
    · exact hm
    · exact hskip.resolve_left hne
  · have hnew := hskip
    rw [Bool.or_eq_true, not_or, Table.contains_iff_mem_names, List.contains_iff_mem] at hnew
    have hnames : ∀ name, name ∈ (t.parameters.extend [entry]).names ↔
        name ∈ t.parameters.names ∨ (name = entry.1 ∧ name ∉ excluded) := by
      intro name
      rw [Table.names_extend, List.mem_append, List.map_singleton, List.mem_singleton]
      exact or_congr_right ⟨fun h => ⟨h, h ▸ hnew.1⟩, And.left⟩
    rw [addParameter, if_neg hskip, Template.addParameter_of_not_mem hnew.2]
    simp only [bind, Except.bind]
    by_cases he : e.parameters.contains entry.1 = true
    · exact ⟨_, by rw [if_pos he]; rfl, hnames⟩
    · have hvalue := he
      rw [Table.contains_iff_mem_names] at hvalue
      exact ⟨_, by rw [if_neg he, Environment.addParameter_of_not_mem hvalue]; rfl, hnames⟩

/-- The names that a template has once the parameters of a seed are copied into it. -/
theorem names_addParameters (seed t : Template) (e : Environment) :
    ∃ target, addParameters seed t e = .ok target ∧
      ∀ name, name ∈ target.1.parameters.names ↔ name ∈ t.parameters.names ∨
        (name ∈ seed.parameters.names ∧ name ∉ roleParameters seed) := by
  suffices hgo : ∀ (entries : List (String × Parameter)) (target : Template × Environment),
      ∃ last, entries.foldlM (addParameter (roleParameters seed)) target = .ok last ∧
        ∀ name, name ∈ last.1.parameters.names ↔ name ∈ target.1.parameters.names ∨
          (name ∈ entries.map (·.1) ∧ name ∉ roleParameters seed) from
    hgo seed.parameters.entries (t, e)
  intro entries
  induction entries with
  | nil => exact fun target => ⟨target, rfl, by simp⟩
  | cons entry rest ih =>
      intro target
      obtain ⟨next, hfirst, hnext⟩ := exists_addParameter (roleParameters seed) target entry
      obtain ⟨last, hrest, hlast⟩ := ih next
      refine ⟨last, by rw [List.foldlM_cons, hfirst]; exact hrest, fun name => ?_⟩
      rw [hlast, hnext, List.map_cons, List.mem_cons, or_and_right, or_assoc]

/-! ## What is copied -/

variable {seed t u : Template}

/-- Resources are copied as they are, those that stand for roles excepted. -/
theorem copied_of_addResources (h : addResources seed t = .ok u) :
    u.parameters = t.parameters ∧ u.outputs = t.outputs ∧
      ∀ entry ∈ u.resources.entries, entry ∈ t.resources.entries ∨
        (entry ∈ seed.resources.entries ∧ entry.2.isRole = false) := by
  refine Proofs.foldlM_keeps (P := fun u : Template =>
    u.parameters = t.parameters ∧ u.outputs = t.outputs ∧
      ∀ entry ∈ u.resources.entries, entry ∈ t.resources.entries ∨
        (entry ∈ seed.resources.entries ∧ entry.2.isRole = false))
    (fun v entry hentry hv w hw => ?_) ⟨rfl, rfl, fun _ => .inl⟩ h
  rw [addResource] at hw
  split at hw
  · cases hw
    exact hv
  · next hskip =>
      obtain ⟨-, rfl⟩ := Template.eq_of_addResource hw
      have hrole : entry.2.isRole = false := by
        rw [Bool.or_eq_true, not_or, Bool.not_eq_true] at hskip
        exact hskip.1
      exact ⟨hv.1, hv.2.1, Table.forall_mem_extend hv.2.2 (.inr ⟨hentry, hrole⟩)⟩

theorem copied_of_addOutputs (h : addOutputs seed t = .ok u) :
    u.parameters = t.parameters ∧ u.resources = t.resources ∧
      ∀ entry ∈ u.outputs.entries, entry ∈ t.outputs.entries ∨ entry ∈ seed.outputs.entries := by
  refine Proofs.foldlM_keeps (P := fun u : Template =>
    u.parameters = t.parameters ∧ u.resources = t.resources ∧
      ∀ entry ∈ u.outputs.entries, entry ∈ t.outputs.entries ∨ entry ∈ seed.outputs.entries)
    (fun v entry hentry hv w hw => ?_) ⟨rfl, rfl, fun _ => .inl⟩ h
  rw [addOutput] at hw
  split at hw
  · cases hw
    exact hv
  · obtain ⟨-, rfl⟩ := Template.eq_of_addOutput hw
    exact ⟨hv.1, hv.2.1, Table.forall_mem_extend hv.2.2 (.inr hentry)⟩

theorem copied_of_addParameters {e : Environment} {target : Template × Environment}
    (h : addParameters seed t e = .ok target) :
    target.1.resources = t.resources ∧ target.1.outputs = t.outputs ∧
      target.2.registry = e.registry ∧
      (∀ entry ∈ target.1.parameters.entries,
        entry ∈ t.parameters.entries ∨ entry ∈ seed.parameters.entries) ∧
      ∀ name ∈ target.2.parameters.names,
        name ∈ e.parameters.names ∨ name ∈ seed.parameters.names := by
  refine Proofs.foldlM_keeps (P := fun target : Template × Environment =>
    target.1.resources = t.resources ∧ target.1.outputs = t.outputs ∧
      target.2.registry = e.registry ∧
      (∀ entry ∈ target.1.parameters.entries,
        entry ∈ t.parameters.entries ∨ entry ∈ seed.parameters.entries) ∧
      ∀ name ∈ target.2.parameters.names,
        name ∈ e.parameters.names ∨ name ∈ seed.parameters.names)
    (fun target entry hentry htarget next hnext => ?_)
    ⟨rfl, rfl, rfl, fun _ => .inl, fun _ => .inl⟩ h
  obtain ⟨hresources, houtputs, hregistry, hparameters, hvalues⟩ := htarget
  rw [addParameter] at hnext
  split at hnext
  · cases hnext
    exact ⟨hresources, houtputs, hregistry, hparameters, hvalues⟩
  · obtain ⟨v, hv, hnext⟩ := Proofs.bind_eq_ok hnext
    obtain ⟨-, rfl⟩ := Template.eq_of_addParameter hv
    have hmore := Table.forall_mem_extend hparameters (.inr hentry)
    split at hnext
    · cases hnext
      exact ⟨hresources, houtputs, hregistry, hmore, hvalues⟩
    · obtain ⟨f, hf, hnext⟩ := Proofs.bind_eq_ok hnext
      obtain ⟨-, rfl⟩ := Environment.eq_of_addParameter hf
      cases hnext
      refine ⟨hresources, houtputs, hregistry, hmore, ?_⟩
      rw [Table.names_extend, List.forall_mem_append, List.map_singleton, List.forall_mem_singleton]
      exact ⟨hvalues, .inr (List.mem_map_of_mem hentry)⟩

end RolePlan.Seed
