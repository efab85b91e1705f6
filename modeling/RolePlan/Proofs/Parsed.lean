import RolePlan.Proofs.Acceptance
import RolePlan.Proofs.RoundTrip

/-!
# What is read is well-formed

A template that a text describes gives no name twice, and it can be written without a loss: a null
has been read as a missing setting. Its resources hold value trees only. All of this is so for the
contents of any document, whether it keeps to the grammar or not.
-/

namespace RolePlan

/-! ## Fields -/

namespace Document

/-- Every value in a section or an entry is well-formed. -/
def Sound (fields : List (String × Value)) : Prop := ∀ field ∈ fields, field.2.WellFormed

theorem sound_of_object {fields : Table Value} (h : (Value.object fields).WellFormed) :
    Sound fields.entries := (Value.wellFormed_object_iff.mp h).2

theorem Sound.find? {fields : Table Value} (h : Sound fields.entries) {name : String} {v : Value}
    (hv : fields.find? name = some v) : v.WellFormed :=
  h _ (Table.mem_of_find? hv)

theorem sound_of_entries {document : Table Value} (h : Sound document.entries) {which : Section}
    {entries : List (String × Value)} (he : Document.entries document which = .ok entries) :
    Sound entries := by
  rw [Document.entries] at he
  split at he
  · cases he
    exact fun _ hm => absurd hm List.not_mem_nil
  · cases he
    exact fun _ hm => absurd hm List.not_mem_nil
  · next hv =>
      cases he
      exact sound_of_object (h.find? hv)
  · cases he

end Document

/-! ## Contents -/

namespace Grammar

variable {fields : Table Value} {v : Value}

theorem wellFormed_given (h : (Value.object fields).WellFormed) (name : String) :
    ∀ v ∈ given fields name, v.WellFormed :=
  fun _ hv => (Value.wellFormed_object_iff.mp h).2 _ (mem_of_given hv)

theorem given_ne_null (fields : Table Value) (name : String) :
    given fields name ≠ some .null :=
  Document.Entry.value?_ne_null ⟨.template, "<root>", fields⟩ name

theorem wellFormed_fieldsOf (hv : v.WellFormed) : (Value.object (fieldsOf v)).WellFormed := by
  cases v with
  | object fields => exact hv
  | _ => exact ⟨List.nodup_nil, trivial⟩

theorem wellFormed_constraintOf (hv : v.WellFormed) :
    (constraintOf v).definition.WellFormed ∧ (constraintOf v).type ≠ "description" := by
  have hvalues := (Value.wellFormed_object_iff.mp (wellFormed_fieldsOf hv)).2
  rw [constraintOf]
  cases hleft : ((fieldsOf v).erase "description").entries with
  | nil =>
      have hne : "" ≠ "description" := by decide
      exact ⟨trivial, hne⟩
  | cons entry rest =>
      have hin : entry ∈ ((fieldsOf v).erase "description").entries :=
        hleft ▸ List.mem_cons_self
      obtain ⟨hentry, hne⟩ := List.mem_filter.mp hin
      exact ⟨hvalues entry hentry, bne_iff_ne.mp hne⟩

theorem wellFormed_parameterOf (hv : v.WellFormed) :
    (parameterOf v).WellFormed ∧ (parameterOf v).Storable := by
  have hfields := wellFormed_fieldsOf hv
  have hconstraints : ∀ c ∈ (parameterOf v).constraints,
      c.definition.WellFormed ∧ c.type ≠ "description" := by
    intro c hc
    obtain ⟨item, hi, rfl⟩ := List.mem_map.mp hc
    exact wellFormed_constraintOf (wellFormed_of_mem_listIn hfields item hi)
  exact ⟨⟨wellFormed_given hfields _, fun c hc => (hconstraints c hc).1⟩,
    ⟨given_ne_null _ _, fun c hc => (hconstraints c hc).2⟩⟩

theorem nodup_groupOf (v : Value) : (groupOf v).parameters.Nodup := by
  have hmembers (items : List Value) (g : ParameterGroup) (hg : g.parameters.Nodup) :
      (items.foldl addMember g).parameters.Nodup := by
    induction items generalizing g with
    | nil => exact hg
    | cons item rest ih => exact ih _ (ParameterGroup.nodup_add hg _)
  exact hmembers _ _ List.nodup_nil

theorem isPlain_resourceOf (v : Value) : (resourceOf v).IsPlain := by
  intro entry he
  obtain ⟨old, -, rfl⟩ := List.mem_map.mp he
  rfl

theorem wellFormed_resourceOf (hv : v.WellFormed) :
    (resourceOf v).WellFormed ∧ (resourceOf v).Storable := by
  have hfields := wellFormed_fieldsOf hv
  obtain ⟨hdistinct, hvalues⟩ :=
    Value.wellFormed_object_iff.mp (wellFormed_mappingIn hfields "properties")
  refine ⟨⟨wellFormed_given hfields _, wellFormed_given hfields _, wellFormed_given hfields _,
    wellFormed_given hfields _, hdistinct.map _, fun entry he => ?_⟩,
    ⟨given_ne_null _ _, given_ne_null _ _, given_ne_null _ _, given_ne_null _ _⟩⟩
  obtain ⟨old, ho, rfl⟩ := List.mem_map.mp he
  exact hvalues old ho

theorem wellFormed_outputOf (hv : v.WellFormed) : (outputOf v).value.WellFormed := by
  rw [outputOf]
  cases hvalue : (fieldsOf v).find? "value" with
  | none => trivial
  | some value =>
      exact (Value.wellFormed_object_iff.mp (wellFormed_fieldsOf hv)).2 _
        (Table.mem_of_find? hvalue)

end Grammar

namespace Template

/-- The template was read from a document. -/
structure Loaded (t : Template) : Prop where
  wellFormed : t.WellFormed
  storable : t.Storable
  plain : ∀ entry ∈ t.resources.entries, entry.2.IsPlain

theorem loaded_contents {document : Table Value} (h : (Value.object document).WellFormed) :
    (Grammar.contents document).Loaded := by
  have hsection {α : Type} {P : α → Prop} {f : Value → α} (name : String)
      (hP : ∀ v, v.WellFormed → P (f v)) :
      ((Grammar.mappingIn document name).map f).Distinct ∧
        ∀ entry ∈ ((Grammar.mappingIn document name).map f).entries, P entry.2 := by
    obtain ⟨hdistinct, hvalues⟩ :=
      Value.wellFormed_object_iff.mp (Grammar.wellFormed_mappingIn h name)
    refine ⟨hdistinct.map f, fun entry he => ?_⟩
    obtain ⟨old, ho, rfl⟩ := List.mem_map.mp he
    exact hP _ (hvalues old ho)
  have hp := hsection (P := fun p : Parameter => p.WellFormed ∧ p.Storable) "parameters"
    fun _ => Grammar.wellFormed_parameterOf
  have hr := hsection (P := fun r : Resource => r.WellFormed ∧ r.Storable) "resources"
    fun _ => Grammar.wellFormed_resourceOf
  have ho := hsection (P := fun o : Output => o.value.WellFormed) "outputs"
    fun _ => Grammar.wellFormed_outputOf
  have hg : ∀ g ∈ (Grammar.contents document).groups, g.parameters.Nodup := by
    intro g hg
    obtain ⟨v, -, rfl⟩ := List.mem_map.mp hg
    exact Grammar.nodup_groupOf v
  constructor
  · exact ⟨⟨hp.1, hr.1, ho.1⟩, fun entry he => (hp.2 entry he).1, hg,
      fun entry he => (hr.2 entry he).1, ho.2⟩
  · exact ⟨fun entry he => (hp.2 entry he).2, fun entry he => (hr.2 entry he).2⟩
  · intro entry he
    obtain ⟨old, -, rfl⟩ := List.mem_map.mp he
    exact Grammar.isPlain_resourceOf old.2

theorem loaded_of_ofDocument {document : Table Value} {t : Template}
    (hdocument : (Value.object document).WellFormed) (h : ofDocument document = .ok t) :
    t.Loaded := by
  rw [Grammar.ofDocument_eq hdocument] at h
  rw [Proofs.outcome_eq_ok h]
  exact loaded_contents hdocument

/-- Whatever text a template is read from, it is well-formed and can be stored. -/
theorem loaded_of_parse {text : String} {t : Template} (h : parse text = .ok t) : t.Loaded := by
  obtain ⟨document, hload, h⟩ := Proofs.bind_eq_ok h
  exact loaded_of_ofDocument (Yaml.wellFormed_of_load hload) h

end Template

end RolePlan
