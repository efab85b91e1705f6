import RolePlan.Proofs.Edit

/-!
# What is left of a history

A plan does not remember how it came about. Of all edits of a run only these count in the end: the
changes of the scaling, the additions of roles that were not removed afterwards, and the values
set in them since. Carrying out these alone gives the same plan, down to the order of its tables.
-/

namespace RolePlan.Plan

def history : List Edit → Plan → List (Edit × Bool)
  | [], _ => []
  | e :: rest, p => (e, e.succeeds p) :: history rest (e.run p)

/-- The edit adds the namespace with success, or removes it. -/
def ends (ns : String) : Edit × Bool → Bool
  | (.addRole other _ _ _, ok) => ok && other == ns
  | (.removeRole other, _) => other == ns
  | (.setValue .., _) => false
  | (.withScaling _, _) => false

/-- The namespaces that were added with success and not removed afterwards, in the order of their
additions. -/
def live : List (Edit × Bool) → List String
  | [] => []
  | (.addRole ns _ _ _, ok) :: later =>
      if ok && !later.any (ends ns) then ns :: live later else live later
  | (.removeRole _, _) :: later => live later
  | (.setValue .., _) :: later => live later
  | (.withScaling _, _) :: later => live later

/-- The edits that count in the end: changes of the scaling, the successful additions that nothing
later ends, and the successful changes of a value in a namespace with such an addition before.
The namespaces of these additions, as far as they have been met, are `met`. -/
def shorten (met : List String) : List (Edit × Bool) → List Edit
  | [] => []
  | (.addRole ns role filename overrides, ok) :: later =>
      if ok && !later.any (ends ns) then
        .addRole ns role filename overrides :: shorten (met ++ [ns]) later
      else shorten met later
  | (.removeRole _, _) :: later => shorten met later
  | (.setValue name value, ok) :: later =>
      if ok && met.any (Namespace.owns · name) then .setValue name value :: shorten met later
      else shorten met later
  | (.withScaling scaling, _) :: later => .withScaling scaling :: shorten met later

/-! ## One more edit -/

section Append

variable {entries : List (Edit × Bool)} {x : Edit × Bool}

/-- What does not count does not come to count by anything that happens later. -/
private theorem not_counts_later {ok ended : Bool} (h : ¬ (ok && !ended) = true) (more : Bool) :
    ¬ (ok && !(ended || more)) = true := by
  cases ok with
  | false => exact h
  | true => cases ended <;> simp_all

/-- An edit that ends no live namespace goes behind what has counted so far. -/
theorem live_append (h : ∀ ns ∈ live entries, ends ns x = false) :
    live (entries ++ [x]) = live entries ++ live [x] := by
  induction entries with
  | nil => rfl
  | cons entry later ih =>
      obtain ⟨e, ok⟩ := entry
      cases e with
      | removeRole ns => exact ih h
      | setValue name value => exact ih h
      | withScaling scaling => exact ih h
      | addRole ns role filename overrides =>
          simp only [List.cons_append, live, List.any_append, List.any_cons, List.any_nil,
            Bool.or_false] at h ⊢
          by_cases hc : (ok && !later.any (ends ns)) = true
          · simp only [hc, if_true, List.forall_mem_cons] at h ⊢
            rw [h.1, Bool.or_false, hc, ih h.2]
            rfl
          · rw [if_neg hc] at h
            rw [if_neg hc, if_neg (not_counts_later hc _), ih h]

theorem shorten_append (met : List String) (h : ∀ ns ∈ live entries, ends ns x = false) :
    shorten met (entries ++ [x]) = shorten met entries ++ shorten (met ++ live entries) [x] := by
  induction entries generalizing met with
  | nil => simp [live, shorten]
  | cons entry later ih =>
      obtain ⟨e, ok⟩ := entry
      cases e with
      | removeRole ns => exact ih met h
      | withScaling scaling => exact congrArg (Edit.withScaling scaling :: ·) (ih met h)
      | setValue name value =>
          simp only [List.cons_append, shorten, live] at h ⊢
          rw [ih met h]
          split <;> rfl
      | addRole ns role filename overrides =>
          simp only [List.cons_append, shorten, live, List.any_append, List.any_cons,
            List.any_nil, Bool.or_false] at h ⊢
          by_cases hc : (ok && !later.any (ends ns)) = true
          · simp only [hc, if_true, List.forall_mem_cons] at h ⊢
            rw [h.1, Bool.or_false, hc, ih _ h.2]
            simp
          · rw [if_neg hc] at h
            rw [if_neg hc, if_neg hc, if_neg (not_counts_later hc _), ih met h]

end Append

/-! ## A removal at the end -/

section Remove

variable {ns : String}

theorem live_append_removeRole (entries : List (Edit × Bool)) (ns : String) :
    live (entries ++ [(.removeRole ns, true)]) = (live entries).filter (· != ns) := by
  induction entries with
  | nil => rfl
  | cons entry later ih =>
      obtain ⟨e, ok⟩ := entry
      cases e with
      | removeRole other => exact ih
      | setValue name value => exact ih
      | withScaling scaling => exact ih
      | addRole other role filename overrides =>
          simp only [List.cons_append, live, List.any_append, List.any_cons, List.any_nil,
            Bool.or_false, ih, ends]
          by_cases hn : other = ns
          · cases ok <;> cases later.any (ends other) <;> simp [hn]
          · have hne : ¬ ns = other := fun h => hn h.symm
            cases ok <;> cases later.any (ends other) <;> simp [hn, hne]

/-- A name in one of several simple namespaces stays so without a namespace that it is not in. -/
private theorem any_owns_filter {met : List String} (hmet : ∀ a ∈ met, Namespace.Simple a)
    (hns : Namespace.Simple ns) (name : String) :
    (met.filter (· != ns)).any (Namespace.owns · name) =
      (met.any (Namespace.owns · name) && !Namespace.owns ns name) := by
  rw [Bool.eq_iff_iff, Bool.and_eq_true, List.any_eq_true, List.any_eq_true, Bool.not_eq_true']
  constructor
  · rintro ⟨a, ha, hown⟩
    obtain ⟨ha, hne⟩ := List.mem_filter.mp ha
    exact ⟨⟨a, ha, hown⟩, (hmet a ha).owns_eq_false hns (bne_iff_ne.mp hne) hown⟩
  · rintro ⟨⟨a, ha, hown⟩, hnot⟩
    refine ⟨a, List.mem_filter.mpr ⟨ha, bne_iff_ne.mpr ?_⟩, hown⟩
    rintro rfl
    exact absurd (hown.symm.trans hnot) (by decide)

/-- A removal at the end leaves out all that concerns its namespace. -/
theorem shorten_append_removeRole {met : List String} {entries : List (Edit × Bool)}
    (hns : Namespace.Simple ns) (hmet : ∀ a ∈ met, Namespace.Simple a)
    (hlive : ∀ a ∈ live entries, Namespace.Simple a) :
    shorten (met.filter (· != ns)) (entries ++ [(.removeRole ns, true)]) =
      (shorten met entries).filter (!·.concerns ns) := by
  induction entries generalizing met with
  | nil => rfl
  | cons entry later ih =>
      obtain ⟨e, ok⟩ := entry
      cases e with
      | removeRole other => exact ih hmet hlive
      | withScaling scaling =>
          exact congrArg (Edit.withScaling scaling :: ·) (ih hmet hlive)
      | setValue name value =>
          simp only [List.cons_append, shorten, any_owns_filter hmet hns, ih hmet hlive]
          cases ok with
          | false => rfl
          | true =>
              cases met.any (Namespace.owns · name) <;> cases hown : Namespace.owns ns name <;>
                simp [Edit.concerns, hown]
      | addRole other role filename overrides =>
          simp only [List.cons_append, shorten, live, List.any_append, List.any_cons,
            List.any_nil, Bool.or_false, ends] at hlive ⊢
          by_cases hc : (ok && !later.any (ends other)) = true
          · rw [if_pos hc, List.forall_mem_cons] at hlive
            have hmore : ∀ a ∈ met ++ [other], Namespace.Simple a := by
              intro a ha
              rcases List.mem_append.mp ha with ha | ha
              · exact hmet a ha
              · exact List.mem_singleton.mp ha ▸ hlive.1
            have hrest := ih hmore hlive.2
            -- The filter on `met` drops the new namespace exactly where its addition is dropped.
            obtain ⟨hok, hlater⟩ := Bool.and_eq_true_iff.mp hc
            rw [Bool.not_eq_true'] at hlater
            by_cases hn : other = ns
            · subst hn
              rw [List.filter_append] at hrest
              simpa [hok, hlater, Edit.concerns] using hrest
            · have hne : ¬ ns = other := fun h => hn h.symm
              rw [List.filter_append] at hrest
              simpa [hok, hlater, Edit.concerns, hn, hne] using hrest
          · rw [if_neg hc] at hlive
            rw [if_neg hc, if_neg (not_counts_later hc _), ih hmet hlive]

end Remove

/-! ## The account of a run -/

/-- What the history of a run tells about the plan at its end. -/
structure Accounts (entries : List (Edit × Bool)) (p : Plan) : Prop where
  edits : runEdits (shorten [] entries) {} = p
  proper : ∀ e ∈ shorten [] entries, e.Proper
  simple : ∀ ns ∈ live entries, Namespace.Simple ns
  registry : p.environment.registry.names = (live entries).map Namespace.aliasOf
  values : ∀ name ∈ p.environment.parameters.names,
    ∃ ns ∈ live entries, Namespace.owns ns name = true

theorem accounts_nil : Accounts [] {} :=
  ⟨rfl, by simp [shorten], by simp [live], rfl, by simp⟩

section Accounts

variable {entries : List (Edit × Bool)} {p : Plan} {ns : String}

theorem Accounts.not_live (h : Accounts entries p) (hfree : p.Free ns) : ns ∉ live entries :=
  fun hm => hfree.registry (h.registry ▸ List.mem_map_of_mem hm)

/-- An edit that fails counts for nothing. -/
theorem Accounts.append_of_fails (h : Accounts entries p) {e : Edit} (he : e.Proper)
    (hfail : e.succeeds p = false) : Accounts (entries ++ [(e, false)]) (e.run p) := by
  have hends : ∀ ns, ends ns (e, false) = false := by
    intro ns
    cases e with
    | removeRole other => cases hfail
    | addRole => rfl
    | setValue => rfl
    | withScaling => rfl
  have hshorten : ∀ met, shorten met [(e, false)] = [] := by
    intro met
    cases e with
    | withScaling scaling => cases hfail
    | addRole => rfl
    | setValue => rfl
    | removeRole => rfl
  have hlive : live [(e, false)] = [] := by cases e <;> rfl
  have hsame : live (entries ++ [(e, false)]) = live entries := by
    rw [live_append fun ns _ => hends ns, hlive, List.append_nil]
  rw [Edit.run_of_fails he hfail]
  obtain ⟨hedits, hproper, hsimple, hregistry, hvalues⟩ := h
  constructor
  · rwa [shorten_append _ fun ns _ => hends ns, hshorten, List.append_nil]
  · rwa [shorten_append _ fun ns _ => hends ns, hshorten, List.append_nil]
  · rwa [hsame]
  · rwa [hsame]
  · rwa [hsame]

theorem Accounts.append_addRole (h : Accounts entries p) {role : Template}
    (hns : Namespace.Simple ns) (hrole : role.Distinct) {filename : String}
    {overrides : Table Value} (hfree : p.Free ns)
    (hrun : (Edit.addRole ns role filename overrides).run p =
      p.withRole ns role filename overrides) :
    Accounts (entries ++ [(.addRole ns role filename overrides, true)])
      (p.withRole ns role filename overrides) := by
  have hends : ∀ other ∈ live entries,
      ends other (.addRole ns role filename overrides, true) = false := by
    intro other hm
    exact beq_eq_false_iff_ne.mpr fun he => h.not_live hfree (he ▸ hm)
  have hlive : live (entries ++ [(.addRole ns role filename overrides, true)]) =
      live entries ++ [ns] := live_append hends
  have hshorten : shorten [] (entries ++ [(.addRole ns role filename overrides, true)]) =
      shorten [] entries ++ [.addRole ns role filename overrides] := shorten_append [] hends
  constructor
  · rw [hshorten, runEdits_append, h.edits]
    exact hrun
  · rw [hshorten, List.forall_mem_append]
    exact ⟨h.proper, by simpa using ⟨hns, hrole⟩⟩
  · rw [hlive, List.forall_mem_append]
    exact ⟨h.simple, by simpa using hns⟩
  · rw [hlive, List.map_append, ← h.registry]
    exact Table.names_extend _ _
  · intro name hm
    rw [withRole, Table.names_extend, map_fst_firstValues] at hm
    rw [hlive]
    rcases List.mem_append.mp hm with hm | hm
    · obtain ⟨other, ho, hown⟩ := h.values name hm
      exact ⟨other, List.mem_append_left _ ho, hown⟩
    · exact ⟨ns, by simp, owns_declared hm⟩

theorem Accounts.append_removeRole (h : Accounts entries p) (hns : Namespace.Simple ns) :
    Accounts (entries ++ [(.removeRole ns, true)]) (p.removeRole ns) := by
  have hmet : ∀ a ∈ ([] : List String), Namespace.Simple a := by simp
  have hshorten : shorten [] (entries ++ [(.removeRole ns, true)]) =
      (shorten [] entries).filter (!·.concerns ns) := shorten_append_removeRole hns hmet h.simple
  constructor
  · rw [hshorten, ← h.edits, removeRole_runEdits hns h.proper]
    rfl
  · rw [hshorten]
    exact fun e he => h.proper e (List.mem_filter.mp he).1
  · rw [live_append_removeRole]
    exact fun a ha => h.simple a (List.mem_filter.mp ha).1
  · rw [live_append_removeRole, removeRole_eq, Table.names_keep, h.registry, List.filter_map]
    congr 2
    funext a
    rw [Function.comp_apply, Bool.eq_iff_iff, bne_iff_ne, bne_iff_ne]
    exact not_congr Namespace.aliasOf_inj
  · intro name hm
    rw [removeRole_eq, Table.names_keep] at hm
    obtain ⟨hm, hnot⟩ := List.mem_filter.mp hm
    obtain ⟨other, ho, hown⟩ := h.values name hm
    rw [live_append_removeRole]
    refine ⟨other, List.mem_filter.mpr ⟨ho, bne_iff_ne.mpr ?_⟩, hown⟩
    rintro rfl
    rw [hown] at hnot
    cases hnot

theorem Accounts.append_setValue (h : Accounts entries p) {name : String}
    (hname : name ∈ p.environment.parameters.names) (value : Value)
    (hrun : (Edit.setValue name value).run p = p.withValue name value) :
    Accounts (entries ++ [(.setValue name value, true)]) (p.withValue name value) := by
  have hlive : live (entries ++ [(.setValue name value, true)]) = live entries := by
    rw [live_append fun _ _ => rfl]
    exact List.append_nil _
  have hmet : (live entries).any (Namespace.owns · name) = true := by
    obtain ⟨ns, hm, hown⟩ := h.values name hname
    exact List.any_eq_true.mpr ⟨ns, hm, hown⟩
  have hshorten : shorten [] (entries ++ [(.setValue name value, true)]) =
      shorten [] entries ++ [.setValue name value] := by
    rw [shorten_append [] fun _ _ => rfl]
    simp [shorten, hmet]
  constructor
  · rw [hshorten, runEdits_append, h.edits]
    exact hrun
  · rw [hshorten, List.forall_mem_append]
    exact ⟨h.proper, by simp [Edit.Proper]⟩
  · rw [hlive]
    exact h.simple
  · rw [hlive]
    exact h.registry
  · rw [hlive, withValue, Table.names_put_of_mem hname]
    exact h.values

theorem Accounts.append_withScaling (h : Accounts entries p) (scaling : Bool) :
    Accounts (entries ++ [(.withScaling scaling, true)]) (p.withScaling scaling) := by
  have hlive : live (entries ++ [(.withScaling scaling, true)]) = live entries := by
    rw [live_append fun _ _ => rfl]
    exact List.append_nil _
  have hshorten : shorten [] (entries ++ [(.withScaling scaling, true)]) =
      shorten [] entries ++ [.withScaling scaling] := shorten_append [] fun _ _ => rfl
  constructor
  · rw [hshorten, runEdits_append, h.edits]
    rfl
  · rw [hshorten, List.forall_mem_append]
    exact ⟨h.proper, by simp [Edit.Proper]⟩
  · rw [hlive]
    exact h.simple
  · rw [hlive]
    exact h.registry
  · rw [hlive]
    exact h.values

/-- The account of a run stays right when the run goes on by one edit. -/
theorem Accounts.append (h : Accounts entries p) {e : Edit} (he : e.Proper) :
    Accounts (entries ++ [(e, e.succeeds p)]) (e.run p) := by
  cases hs : e.succeeds p with
  | false => exact h.append_of_fails he hs
  | true =>
      cases e with
      | addRole ns role filename overrides =>
          obtain ⟨hfree, hrun⟩ := Edit.free_of_addRole_succeeds he.2 hs
          rw [hrun]
          exact h.append_addRole he.1 he.2 hfree hrun
      | removeRole ns => exact h.append_removeRole he
      | withScaling scaling => exact h.append_withScaling scaling
      | setValue name value =>
          obtain ⟨hrun, hsucc⟩ := Edit.setValue_on p name value
          have hin : p.environment.parameters.contains name = true := hsucc.symm.trans hs
          rw [if_pos hin] at hrun
          rw [hrun]
          exact h.append_setValue (Table.contains_iff_mem_names.mp hin) value hrun

theorem accounts_history {es : List Edit} (hes : ∀ e ∈ es, e.Proper) :
    Accounts (history es {}) (runEdits es {}) := by
  -- An account grows at its end, while a run is taken apart from its front.
  suffices h : ∀ entries p, Accounts entries p →
      Accounts (entries ++ history es p) (runEdits es p) from h [] {} accounts_nil
  induction es with
  | nil =>
      intro entries p h
      rwa [history, List.append_nil]
  | cons e rest ih =>
      intro entries p h
      have hnext := ih (fun other ho => hes other (List.mem_cons_of_mem e ho)) _ _
        (h.append (hes e List.mem_cons_self))
      rwa [List.append_assoc] at hnext

end Accounts

/-- The plan at the end of a run is that of the edits that count in the end, and its roles are the
namespaces that are live, in the order of their additions. -/
theorem history_independent {es : List Edit} (hes : ∀ e ∈ es, e.Proper) :
    runEdits (shorten [] (history es {})) {} = runEdits es {} ∧
      (runEdits es {}).roleNamespaces = live (history es {}) := by
  have h := accounts_history hes
  refine ⟨h.edits, ?_⟩
  have hread : Namespace.ofAlias? ∘ Namespace.aliasOf = some := funext Namespace.ofAlias?_aliasOf
  rw [roleNamespaces, h.registry, List.filterMap_map, hread, List.filterMap_some]

/-- Two roles, of which one is removed and comes back, with edits that fail in between. -/
def sampleEdits : List Edit :=
  let role : Template := { parameters := ⟨[("image", { type := "string" })]⟩ }
  [.addRole "a" role "a.yaml" .empty, .setValue "a::image" (.string "x"), .withScaling false,
    .addRole "b" role "b.yaml" .empty, .addRole "b" role "other.yaml" .empty, .removeRole "a",
    .setValue "a::image" (.string "y"), .setValue "b::image" (.string "z"),
    .addRole "a" role "a.yaml" ⟨[("image", .null)]⟩]

theorem history_independent_sampleEdits :
    let role : Template := { parameters := ⟨[("image", { type := "string" })]⟩ }
    (∀ e ∈ sampleEdits, e.Proper) ∧
      runEdits
        [.withScaling false, .addRole "b" role "b.yaml" .empty,
          .setValue "b::image" (.string "z"), .addRole "a" role "a.yaml" ⟨[("image", .null)]⟩] {} =
        runEdits sampleEdits {} ∧
      (runEdits sampleEdits {}).roleNamespaces = ["b", "a"] := by
  intro role
  have hproper : ∀ e ∈ sampleEdits, e.Proper := by
    have hrole : role.Distinct := ⟨by decide, by decide, by decide⟩
    have ha : Namespace.Simple "a" := by decide
    have hb : Namespace.Simple "b" := by decide
    simp only [sampleEdits, List.forall_mem_cons, Edit.Proper]
    exact ⟨⟨ha, hrole⟩, trivial, trivial, ⟨hb, hrole⟩, ⟨hb, hrole⟩, ha, trivial, trivial,
      ⟨ha, hrole⟩, by simp⟩
  obtain ⟨hrun, hroles⟩ := history_independent hproper
  exact ⟨hproper, hrun, hroles⟩

end RolePlan.Plan
