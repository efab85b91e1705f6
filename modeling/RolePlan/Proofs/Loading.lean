import RolePlan.Proofs.Removal

/-!
# Loading what a run has stored

What a run stores can be loaded again, and it is the plan that was built: it has the same texts, and
the same is told of it. This rests on the two documents having paths of their own, which the check
of a description does not ask for.
-/

namespace RolePlan.Description

/-- Where the plan that is built can be stored and is given back, what a run has stored is loaded as
that plan. -/
theorem exists_load_of_run {S : Type} [Storage (StateM S)] {good : S → Prop}
    (hkeeping : Storage.Keeping good) {d : Description}
    (hpaths : d.output.templatePath ≠ d.output.environmentPath) {s s₁ : S} (hs : good s)
    {summary : Summary} (hrun : d.run.on s = (.ok summary, s₁))
    (hbuilt : ∀ p, (d.build.on s).1 = .ok p → p.Portable ∧ p.GivenBack) :
    ∃ p q s₂, (d.build.on s).1 = .ok p ∧ d.load.on s₁ = (.ok q, s₂) ∧
      q.compose = p.compose ∧ d.summaryOf q = summary := by
  obtain ⟨p, hbuild⟩ := exists_build_of_run hrun
  obtain ⟨t, hstore, ht, hstored⟩ := gives_run_of_build hkeeping hs hbuild
  obtain ⟨hsummary, rfl⟩ := Prod.mk.inj (hrun.symm.trans hstore.on_of_ok)
  obtain ⟨hportable, hback⟩ := hbuilt p hbuild
  obtain ⟨s₂, hload, -, -⟩ := gives_load hkeeping d hportable hback hpaths ht hstored
  have hsame := (store_expand d p d.scalingEnabled (Storage.text s)).1
  refine ⟨p, _, s₂, hbuild, hload.on_of_ok, Plan.compose_expand p, ?_⟩
  exact hsame.trans (Except.ok.inj hsummary).symm

/-- What a run has stored is loaded as the plan that was built, on a storage that keeps what it is
given and under two different paths. -/
theorem load_of_run {S : Type} [Storage (StateM S)] {good : S → Prop}
    (hkeeping : Storage.Keeping good) {d : Description} (hvalues : d.WellFormed)
    (hpaths : d.output.templatePath ≠ d.output.environmentPath) {s s₁ : S} (hs : good s)
    {summary : Summary} (hrun : d.run.on s = (.ok summary, s₁))
    (hback : ∀ p, (d.build.on s).1 = .ok p → p.GivenBack) :
    ∃ p q s₂, (d.build.on s).1 = .ok p ∧ d.load.on s₁ = (.ok q, s₂) ∧
      q.compose = p.compose ∧ d.summaryOf q = summary :=
  exists_load_of_run hkeeping hpaths hs hrun fun p hp => ⟨portable_build hvalues hp, hback p hp⟩

/-! ## One file for both documents -/

theorem wellFormed_pairDescription : pairDescription.WellFormed :=
  ⟨by simp [pairDescription, values, Value.WellFormed], by simp [pairDescription, Role.values]⟩

theorem load_of_run_pairDescription :
    pairDescription.output.templatePath ≠ pairDescription.output.environmentPath ∧
      ∃ summary s₁ q s₂,
        (pairDescription.run (m := StateM Shelf)).on pairShelf = (.ok summary, s₁) ∧
        (pairDescription.load (m := StateM Shelf)).on s₁ = (.ok q, s₂) ∧
        q.compose = pairPlan.compose ∧ pairDescription.summaryOf q = summary := by
  have hpaths : pairDescription.output.templatePath ≠ pairDescription.output.environmentPath := by
    decide
  obtain ⟨s₁, hrun, -, -, hbuild⟩ := gives_run Shelf.keeping rfl rfl planOf_pairDescription
  have hback : ∀ p, (pairDescription.build.on pairShelf).1 = .ok p → p.GivenBack := by
    intro p hp
    rw [hbuild] at hp
    cases hp
    exact givenBack_pairPlan
  obtain ⟨p, q, s₂, hp, hload, hcompose, hsummary⟩ :=
    load_of_run Shelf.keeping wellFormed_pairDescription hpaths rfl hrun.on_of_ok hback
  rw [hbuild] at hp
  cases hp
  exact ⟨hpaths, _, s₁, q, s₂, hrun.on_of_ok, hload, hcompose, hsummary⟩

/-- The environment of the two roles is not the text of a template. -/
theorem parse_environment_pairPlan : ∃ e, Template.parse pairPlan.compose.2 = .error e := by
  have hportable : pairPlan.Portable := by
    refine portable_planOf wellFormed_pairDescription (fun source hsource => ?_)
      planOf_pairDescription
    obtain ⟨r, hr, rfl⟩ := List.mem_map.mp hsource
    exact hr
  have hload : Document.load pairPlan.compose.2 = .ok pairPlan.environment.toDocument :=
    Yaml.load_write hportable.environment.toDocument givenBack_pairPlan.2
  rw [Template.parse, hload]
  exact ⟨_, rfl⟩

def oneFileDescription : Description :=
  { pairDescription with
    output := { path := "out", template := some "plan.yaml", environment := some "plan.yaml" } }

/-- The check lets one file pass for both documents, and the run succeeds. The environment is
written over the template, so that nothing can be loaded. -/
theorem load_of_run_oneFileDescription :
    oneFileDescription.check = .ok () ∧ ∃ summary s₁ e,
      (oneFileDescription.run (m := StateM Shelf)).on pairShelf = (.ok summary, s₁) ∧
      ((oneFileDescription.load (m := StateM Shelf)).on s₁).1 = .error e := by
  have hcheck : oneFileDescription.check = .ok () := rfl
  have hpaths : oneFileDescription.output.templatePath =
      oneFileDescription.output.environmentPath := rfl
  obtain ⟨s₁, hrun, hs₁, hstored, -⟩ := gives_run (d := oneFileDescription) Shelf.keeping rfl rfl
    planOf_pairDescription
  have htext : Storage.text s₁ oneFileDescription.output.environmentPath =
      .ok pairPlan.compose.2 := by
    rw [hstored, storedTexts, Function.update_self]
  obtain ⟨e, he⟩ := parse_environment_pairPlan
  obtain ⟨t, hload, -, -⟩ :=
    gives_load_of_texts Shelf.keeping oneFileDescription hs₁ (hpaths ▸ htext) htext
  rw [he] at hload
  exact ⟨hcheck, _, s₁, e, hrun.on_of_ok, hload.on_fst⟩

end RolePlan.Description
