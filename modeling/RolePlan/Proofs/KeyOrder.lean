import RolePlan.Proofs.TreeOrder

/-!
# The order of keys

A document says the same with the keys of its mappings in other orders, at any depth. A template is
read from both documents or from neither, and so is an environment; what is read is the same up to
the order of its tables. For the keys of a YAML text this needs that no two of them become one name:
of such keys the last counts.
-/

namespace RolePlan.Grammar

open Value (Alike)
open Proofs (SameOutcome)

variable {f g : Table Value} {v w : Value} {form : Value → Bool}

/-! ## Forms -/

/-- The form does not look at the order of keys. -/
def IgnoresOrder (form : Value → Bool) : Prop := ∀ v w, v.Alike w → form v = form w

/-- An alike value is of the same kind: only lists and objects can differ at all. -/
theorem eq_or_of_alike (h : v.Alike w) :
    v = w ∨ (∃ items others, v = .list items ∧ w = .list others ∧
        List.Forall₂ Alike items others) ∨
      ∃ f g, v = .object f ∧ w = .object g ∧ f.Alike g := by
  obtain ⟨hv, hw⟩ := h
  cases v with
  | list items =>
      obtain ⟨others, rfl, hitems⟩ := hw
      exact .inr (.inl ⟨items, others, rfl, rfl,
        Value.forall₂_alike_of_reordersItems (Value.wellFormed_list_iff.mp hv) hitems⟩)
  | object f =>
      obtain ⟨changed, others, rfl, hrest⟩ := hw
      exact .inr (.inr ⟨f, ⟨others⟩, rfl, rfl, hv, changed, others, rfl, hrest⟩)
  | _ => exact .inl hw.symm

theorem ignoresOrder_of_leaf (hlist : ∀ items others, form (.list items) = form (.list others))
    (hobject : ∀ f g, form (.object f) = form (.object g)) : IgnoresOrder form := by
  intro v w h
  obtain rfl | ⟨items, others, rfl, rfl, -⟩ | ⟨f, g, rfl, rfl, -⟩ := eq_or_of_alike h
  · rfl
  · exact hlist items others
  · exact hobject f g

theorem ignoresOrder_isText : IgnoresOrder isText :=
  ignoresOrder_of_leaf (fun _ _ => rfl) fun _ _ => rfl

theorem ignoresOrder_isScalar : IgnoresOrder isScalar :=
  ignoresOrder_of_leaf (fun _ _ => rfl) fun _ _ => rfl

theorem ignoresOrder_isTruth : IgnoresOrder isTruth :=
  ignoresOrder_of_leaf (fun _ _ => rfl) fun _ _ => rfl

theorem ignoresOrder_any : IgnoresOrder fun _ => true := fun _ _ _ => rfl

theorem scalarText?_of_alike (h : v.Alike w) : v.scalarText? = w.scalarText? := by
  obtain rfl | ⟨items, others, rfl, rfl, -⟩ | ⟨f, g, rfl, rfl, -⟩ := eq_or_of_alike h <;> rfl

theorem all_eq_of_forall₂ (hform : IgnoresOrder form) {items others : List Value}
    (h : List.Forall₂ Alike items others) : items.all form = others.all form := by
  induction h with
  | nil => rfl
  | cons hfirst _ ih => rw [List.all_cons, List.all_cons, hform _ _ hfirst, ih]

theorem IgnoresOrder.isListOf (hform : IgnoresOrder form) : IgnoresOrder (isListOf form) := by
  intro v w h
  obtain rfl | ⟨items, others, rfl, rfl, hitems⟩ | ⟨f, g, rfl, rfl, -⟩ := eq_or_of_alike h
  · rfl
  · exact all_eq_of_forall₂ hform hitems
  · rfl

theorem IgnoresOrder.isMappingOf (hform : IgnoresOrder form) : IgnoresOrder (isMappingOf form) := by
  intro v w h
  obtain rfl | ⟨items, others, rfl, rfl, hitems⟩ | ⟨f, g, rfl, rfl, hfields⟩ := eq_or_of_alike h
  · rfl
  · rfl
  · rw [Grammar.isMappingOf, Grammar.isMappingOf, Bool.eq_iff_iff, List.all_eq_true,
      List.all_eq_true]
    constructor
    · rintro hall ⟨name, w⟩ he
      obtain ⟨v, hv, halike⟩ := hfields.exists_of_mem_right he
      rw [← hform v w halike]
      exact hall _ (Table.mem_of_find? hv)
    · rintro hall ⟨name, v⟩ he
      obtain ⟨w, hw, halike⟩ := hfields.exists_of_mem he
      rw [hform v w halike]
      exact hall _ (Table.mem_of_find? hw)

theorem ignoresOrder_isRecord {form : Table Value → Bool}
    (h : ∀ f g : Table Value, f.Alike g → form f = form g) : IgnoresOrder (isRecord form) := by
  intro v w halike
  obtain rfl | ⟨items, others, rfl, rfl, -⟩ | ⟨f, g, rfl, rfl, hfields⟩ := eq_or_of_alike halike
  · rfl
  · rfl
  · exact h f g hfields

/-! ## Fields -/

theorem given_of_alike (h : f.Alike g) (name : String) :
    Option.Rel Alike (given f name) (given g name) := by
  have hrel := h.find? name
  rw [given, given]
  generalize f.find? name = a at hrel ⊢
  generalize g.find? name = b at hrel ⊢
  cases hrel with
  | none => exact .none
  | some halike =>
      obtain rfl | ⟨items, others, rfl, rfl, -⟩ | ⟨f, g, rfl, rfl, -⟩ := eq_or_of_alike halike
      · split
        · exact .none
        · exact .none
        · next hfind =>
            cases hfind
            exact .some halike
      · exact .some halike
      · exact .some halike

/-- What is made of a field is equal, if it is for all alike values that the field can have. -/
theorem eq_of_rel {α : Type} {k : Option Value → α} {a b : Option Value}
    (h : Option.Rel Alike a b) (hk : ∀ v w, v.Alike w → k (some v) = k (some w)) : k a = k b := by
  cases h with
  | none => rfl
  | some halike => exact hk _ _ halike

theorem allows_of_alike (h : f.Alike g) (name : String) (hform : IgnoresOrder form) :
    allows f name form = allows g name form :=
  eq_of_rel (k := (·.all form)) (given_of_alike h name) hform

theorem demands_of_alike (h : f.Alike g) (name : String) (hform : IgnoresOrder form) :
    demands f name form = demands g name form :=
  eq_of_rel (k := (·.any form)) (h.find? name) hform

theorem ignoresOrder_isConstraint : IgnoresOrder isConstraint :=
  ignoresOrder_isRecord fun f g h => by
    rw [allows_of_alike h "description" ignoresOrder_isText, Table.erase, Table.erase, h.size_keep]

theorem ignoresOrder_isParameter : IgnoresOrder isParameter :=
  ignoresOrder_isRecord fun f g h => by
    rw [demands_of_alike h "type" ignoresOrder_isText,
      allows_of_alike h "description" ignoresOrder_isScalar,
      allows_of_alike h "label" ignoresOrder_isScalar,
      allows_of_alike h "hidden" ignoresOrder_isTruth,
      allows_of_alike h "constraints" ignoresOrder_isConstraint.isListOf]

theorem ignoresOrder_isGroup : IgnoresOrder isGroup :=
  ignoresOrder_isRecord fun f g h => by
    rw [demands_of_alike h "label" ignoresOrder_isScalar,
      allows_of_alike h "description" ignoresOrder_isScalar,
      allows_of_alike h "parameters" ignoresOrder_isScalar.isListOf]

theorem ignoresOrder_isResource : IgnoresOrder isResource :=
  ignoresOrder_isRecord fun f g h => by
    rw [demands_of_alike h "type" ignoresOrder_isScalar,
      allows_of_alike h "properties" ignoresOrder_any.isMappingOf]

theorem ignoresOrder_isOutput : IgnoresOrder isOutput :=
  ignoresOrder_isRecord fun f g h => by
    rw [demands_of_alike h "value" ignoresOrder_any,
      allows_of_alike h "description" ignoresOrder_isScalar]

/-- Whether a document describes a template does not depend on the order of keys. -/
theorem isTemplate_of_alike (h : f.Alike g) : isTemplate f = isTemplate g := by
  rw [isTemplate, isTemplate, allows_of_alike h "description" ignoresOrder_isScalar,
    allows_of_alike h "parameters" ignoresOrder_isParameter.isMappingOf,
    allows_of_alike h "parameter_groups" ignoresOrder_isGroup.isListOf,
    allows_of_alike h "resources" ignoresOrder_isResource.isMappingOf,
    allows_of_alike h "outputs" ignoresOrder_isOutput.isMappingOf]

/-! ## Contents -/

theorem alike_empty : (Table.empty : Table Value).Alike .empty :=
  ⟨⟨List.nodup_nil, trivial⟩, [], [], rfl, rfl, .nil⟩

theorem fieldsOf_of_alike (h : v.Alike w) : (fieldsOf v).Alike (fieldsOf w) := by
  obtain rfl | ⟨items, others, rfl, rfl, -⟩ | ⟨f, g, rfl, rfl, hfields⟩ := eq_or_of_alike h
  · cases v with
    | object f => exact h
    | _ => exact alike_empty
  · exact alike_empty
  · exact hfields

theorem textIn_of_alike (h : f.Alike g) (name : String) : textIn f name = textIn g name :=
  eq_of_rel (k := (·.bind Value.scalarText?)) (given_of_alike h name)
    fun _ _ => scalarText?_of_alike

theorem truthIn_of_alike (h : f.Alike g) (name : String) : truthIn f name = truthIn g name := by
  have hrel := given_of_alike h name
  rw [truthIn, truthIn]
  generalize given f name = a at hrel ⊢
  generalize given g name = b at hrel ⊢
  cases hrel with
  | none => rfl
  | some halike =>
      obtain rfl | ⟨items, others, rfl, rfl, -⟩ | ⟨f, g, rfl, rfl, -⟩ := eq_or_of_alike halike <;>
        rfl

theorem listIn_of_alike (h : f.Alike g) (name : String) :
    List.Forall₂ Alike (listIn f name) (listIn g name) := by
  have hrel := given_of_alike h name
  rw [listIn, listIn]
  generalize given f name = a at hrel ⊢
  generalize given g name = b at hrel ⊢
  cases hrel with
  | none => exact .nil
  | @some v _ halike =>
      cases v with
      | list items =>
          obtain ⟨hitems, others, rfl, hothers⟩ := halike
          exact Value.forall₂_alike_of_reordersItems (Value.wellFormed_list_iff.mp hitems) hothers
      | object fields =>
          obtain ⟨-, changed, others, rfl, -⟩ := halike
          exact .nil
      | _ =>
          obtain ⟨-, rfl⟩ := halike
          exact .nil

theorem mappingIn_of_alike (h : f.Alike g) (name : String) :
    (mappingIn f name).Alike (mappingIn g name) := by
  have hrel := given_of_alike h name
  rw [mappingIn, mappingIn]
  generalize given f name = a at hrel ⊢
  generalize given g name = b at hrel ⊢
  cases hrel with
  | none => exact alike_empty
  | @some v w halike =>
      obtain rfl | ⟨items, others, rfl, rfl, -⟩ | ⟨f, g, rfl, rfl, hfields⟩ :=
        eq_or_of_alike halike
      · split
        · next hfind =>
            cases hfind
            exact halike
        · exact alike_empty
      · exact alike_empty
      · exact hfields

/-- Besides its description, a constraint has one field, whatever its place. -/
theorem same_constraintOf (h : v.Alike w) (hform : isConstraint v = true) :
    (constraintOf v).same (constraintOf w) = true := by
  have hfields := fieldsOf_of_alike h
  have hone : ((fieldsOf v).erase "description").size = 1 := by
    cases v with
    | object f =>
        rw [isConstraint, isRecord, Bool.and_eq_true, beq_iff_eq] at hform
        exact hform.2
    | _ => cases hform
  have hother : ((fieldsOf w).erase "description").size = 1 := by
    rw [Table.erase, ← hfields.size_keep]
    exact hone
  obtain ⟨⟨type, definition⟩, hleft⟩ := List.length_eq_one_iff.mp hone
  obtain ⟨other, hright⟩ := List.length_eq_one_iff.mp hother
  have hmem : (type, definition) ∈ ((fieldsOf v).erase "description").entries :=
    hleft ▸ List.mem_singleton_self _
  obtain ⟨hmem, hname⟩ := List.mem_filter.mp hmem
  obtain ⟨u, hu, halike⟩ := hfields.exists_of_mem hmem
  have hcounterpart : (type, u) ∈ ((fieldsOf w).erase "description").entries :=
    List.mem_filter.mpr ⟨Table.mem_of_find? hu, hname⟩
  rw [hright, List.mem_singleton] at hcounterpart
  rw [constraintOf, constraintOf, hleft, hright, ← hcounterpart, textIn_of_alike hfields]
  simp [Constraint.same, halike.same]

/-- Lists are compared item by item. -/
theorem all_zip_of_forall₂ {α : Type} (same : α → α → Bool) (content : Value → α)
    {items others : List Value} (h : List.Forall₂ Alike items others)
    (hsame : ∀ v ∈ items, ∀ w, v.Alike w → same (content v) (content w) = true) :
    (((items.map content).zip (others.map content)).all fun (a, b) => same a b) = true := by
  induction h with
  | nil => rfl
  | cons hfirst _ ih =>
      rw [List.forall_mem_cons] at hsame
      rw [List.map_cons, List.map_cons, List.zip_cons_cons, List.all_cons, Bool.and_eq_true]
      exact ⟨hsame.1 _ hfirst, ih hsame.2⟩

theorem same_parameterOf (h : v.Alike w) (hform : isParameter v = true) :
    (parameterOf v).same (parameterOf w) = true := by
  have hfields := fieldsOf_of_alike h
  have hlist := listIn_of_alike hfields "constraints"
  have hconstraints : ∀ c ∈ listIn (fieldsOf v) "constraints", isConstraint c = true := by
    cases v with
    | object f =>
        rw [isParameter, isRecord, Bool.and_eq_true] at hform
        exact ((allows_isListOf_iff isConstraint).mp hform.2).2
    | _ => cases hform
  have hsame := all_zip_of_forall₂ Constraint.same constraintOf hlist fun c hc d halike =>
    same_constraintOf halike (hconstraints c hc)
  simp only [Parameter.same, parameterOf, textIn_of_alike hfields, truthIn_of_alike hfields,
    Value.sameOptional_of_rel (given_of_alike hfields "default"), List.length_map,
    hlist.length_eq, hsame, beq_self_eq_true, Bool.and_self]

/-- The members of a group are texts, so that the group itself is equal. -/
theorem groupOf_eq_of_alike (h : v.Alike w) : groupOf v = groupOf w := by
  have hfields := fieldsOf_of_alike h
  have hmembers {items others : List Value} (hlist : List.Forall₂ Alike items others)
      (g : ParameterGroup) : items.foldl addMember g = others.foldl addMember g := by
    induction hlist generalizing g with
    | nil => rfl
    | cons hfirst _ ih =>
        rw [List.foldl_cons, List.foldl_cons, addMember, addMember, scalarText?_of_alike hfirst, ih]
  rw [groupOf, groupOf, textIn_of_alike hfields, textIn_of_alike hfields]
  exact hmembers (listIn_of_alike hfields "parameters") _

theorem sameProperties_eq_all (properties others : List (String × PropertyValue)) :
    Resource.sameProperties properties others =
      properties.all fun entry => (others.lookup entry.1).any (Resource.sameProperty entry.2) := by
  induction properties with
  | nil => rfl
  | cons entry rest ih =>
      rw [Resource.sameProperties, ih, List.all_cons]
      cases others.lookup entry.1 <;> rfl

theorem same_resourceOf (h : v.Alike w) : (resourceOf v).same (resourceOf w) = true := by
  have hfields := fieldsOf_of_alike h
  have hproperties : ((mappingIn (fieldsOf v) "properties").map PropertyValue.plain).sameBy
      Resource.sameProperty ((mappingIn (fieldsOf w) "properties").map .plain) = true :=
    (mappingIn_of_alike hfields "properties").sameBy_map _ _ fun _ _ _ halike => halike.same
  rw [Table.sameBy, Bool.and_eq_true] at hproperties
  have hsetting (name : String) := Value.sameOptional_of_rel (given_of_alike hfields name)
  simp only [resourceOf, Resource.same, textIn_of_alike hfields, hsetting, beq_self_eq_true,
    sameProperties_eq_all, Bool.true_and, Bool.and_eq_true]
  exact hproperties

theorem same_outputOf (h : v.Alike w) : (outputOf v).same (outputOf w) = true := by
  have hfields := fieldsOf_of_alike h
  have hvalue : (((fieldsOf v).find? "value").getD .null).same
      (((fieldsOf w).find? "value").getD .null) = true := by
    have hrel := hfields.find? "value"
    generalize (fieldsOf v).find? "value" = a at hrel ⊢
    generalize (fieldsOf w).find? "value" = b at hrel ⊢
    cases hrel with
    | none => rfl
    | some halike => exact halike.same
  rw [Output.same, outputOf, outputOf, textIn_of_alike hfields, hvalue, beq_self_eq_true,
    Bool.and_self]

/-- Alike documents hold the same template. -/
theorem same_contents (h : f.Alike g) (hform : isTemplate f = true) :
    (contents f).same (contents g) = true := by
  simp only [isTemplate, Bool.and_eq_true] at hform
  obtain ⟨⟨⟨⟨-, hform⟩, -⟩, -⟩, -⟩ := hform
  have hforms := ((allows_isMappingOf_iff isParameter).mp hform).2
  have hparameters := (mappingIn_of_alike h "parameters").sameBy_map Parameter.same parameterOf
    fun entry he _ halike => same_parameterOf halike (hforms entry he)
  have hgroups := all_zip_of_forall₂ ParameterGroup.same groupOf
    (listIn_of_alike h "parameter_groups") fun v _ _ halike =>
      groupOf_eq_of_alike halike ▸ (groupOf v).same_self
  have hresources := (mappingIn_of_alike h "resources").sameBy_map Resource.same resourceOf
    fun _ _ _ => same_resourceOf
  have houtputs := (mappingIn_of_alike h "outputs").sameBy_map Output.same outputOf
    fun _ _ _ => same_outputOf
  simp only [Template.same, contents, textIn_of_alike h, hparameters,
    hgroups, hresources, houtputs, List.length_map,
    (listIn_of_alike h "parameter_groups").length_eq, beq_self_eq_true, Bool.and_self]

/-! ## Environments -/

theorem isEnvironment_of_alike (h : f.Alike g) : isEnvironment f = isEnvironment g := by
  rw [isEnvironment, isEnvironment, allows_of_alike h "parameters" ignoresOrder_any.isMappingOf,
    allows_of_alike h "resource_registry" ignoresOrder_isText.isMappingOf]

theorem fileOf_of_alike (h : v.Alike w) : fileOf v = fileOf w := by
  obtain rfl | ⟨items, others, rfl, rfl, -⟩ | ⟨f, g, rfl, rfl, -⟩ := eq_or_of_alike h <;> rfl

/-- Alike documents hold the same environment. -/
theorem same_environmentOf (h : f.Alike g) : (environmentOf f).same (environmentOf g) = true := by
  have hvalues := (mappingIn_of_alike h "parameters").sameBy_map Value.same id
    fun _ _ _ halike => halike.same
  have hfiles := (mappingIn_of_alike h "resource_registry").sameBy_map
    (fun a b : String => a == b) fileOf fun _ _ _ halike =>
      beq_iff_eq.mpr (fileOf_of_alike halike)
  rw [Table.map_eq_self fun _ _ => rfl, Table.map_eq_self fun _ _ => rfl] at hvalues
  exact Bool.and_eq_true_iff.mpr ⟨hvalues, hfiles⟩

/-! ## Readers -/

/-- Alike documents are read alike. -/
theorem sameOutcome_ofDocument (h : f.Alike g) :
    SameOutcome (Template.same · ·) (Template.ofDocument f) (Template.ofDocument g) ∧
      SameOutcome (Environment.same · ·) (Environment.ofDocument f)
        (Environment.ofDocument g) := by
  have hg := h.wellFormed.reorders h.reorders
  constructor
  · rw [ofDocument_eq h.wellFormed, ofDocument_eq hg]
    refine .of_outcome ?_ fun hnone => same_contents h ((faults_eq_nil_iff f).mp hnone)
    rw [faults_eq_nil_iff, faults_eq_nil_iff, isTemplate_of_alike h]
  · rw [ofDocument_environment_eq h.wellFormed, ofDocument_environment_eq hg]
    refine .of_outcome ?_ fun _ => same_environmentOf h
    rw [environmentFaults_eq_nil_iff, environmentFaults_eq_nil_iff, isEnvironment_of_alike h]

/-- Texts of trees that differ only in the order of keys are loaded alike, if no keys clash. A blank
text is loaded without a look at its tree. -/
theorem load_of_reorders {text text' : String} {tree other : Yaml.Tree}
    (hblank : Text.isBlank text = Text.isBlank text') (hread : Yaml.Tree.read text = .ok tree)
    (hread' : Yaml.Tree.read text' = .ok other) (h : tree.Reorders other)
    (hfree : tree.Unambiguous) :
    SameOutcome Table.Alike (Document.load text) (Document.load text') := by
  rw [Document.load, Document.load, ← hblank, Yaml.read, Yaml.read, hread, hread']
  split
  · exact .ok alike_empty
  · refine (Yaml.alike_of_reorders (Yaml.Tree.proper_of_read hread) hfree h).bind
      fun v w halike => ?_
    cases v with
    | null =>
        obtain rfl := halike.reorders
        exact .ok alike_empty
    | object f =>
        obtain ⟨changed, others, rfl, -⟩ := halike.reorders
        exact .ok halike
    | list items =>
        obtain ⟨others, rfl, -⟩ := halike.reorders
        exact .error _ _
    | _ =>
        obtain rfl := halike.reorders
        exact .error _ _

/-- Two YAML trees that differ only in the order of keys, at any depth, are converted alike if no
text among the keys of a mapping is also the text of a number or truth value among them. From both
documents a template is read or refused alike, and so is an environment, and what is read is the
same up to the order of tables and of object fields. -/
theorem ignores_keyOrder {tree other : Yaml.Tree} (h : tree.Reorders other)
    (hfree : tree.Unambiguous) :
    (tree.Proper → SameOutcome Alike (Yaml.ofTree tree) (Yaml.ofTree other) ∧
      ∀ document document', Yaml.ofTree tree = .ok (.object document) →
        Yaml.ofTree other = .ok (.object document') →
          SameOutcome (Template.same · ·) (Template.ofDocument document)
              (Template.ofDocument document') ∧
            SameOutcome (Environment.same · ·) (Environment.ofDocument document)
              (Environment.ofDocument document')) ∧
      ∀ text text', Yaml.Tree.read text = .ok tree → Yaml.Tree.read text' = .ok other →
        Text.isBlank text = Text.isBlank text' →
          SameOutcome (Template.same · ·) (Template.parse text) (Template.parse text') ∧
            SameOutcome (Environment.same · ·) (Environment.parse text)
              (Environment.parse text') := by
  constructor
  · intro hp
    have houtcome := Yaml.alike_of_reorders hp hfree h
    exact ⟨houtcome, fun document document' hd hd' =>
      sameOutcome_ofDocument (houtcome.of_ok hd hd')⟩
  · intro text text' hread hread' hblank
    have hload := load_of_reorders hblank hread hread' h hfree
    rw [Template.parse, Template.parse, Environment.parse, Environment.parse]
    exact ⟨hload.bind fun _ _ halike => (sameOutcome_ofDocument halike).1,
      hload.bind fun _ _ halike => (sameOutcome_ofDocument halike).2⟩

def reversedLines : List String :=
  ["parameters:",
    "  '1.50': !Ref",
    "    type: string",
    "  true:",
    "    type: number",
    "  1.5:",
    "    type: json",
    "  1:",
    "    type: string"]

def reversedTree : Yaml.Tree :=
  .mapping [(.scalar (.string "parameters"), .mapping [
    (.scalar (.string "1.50"), .tagged "Ref" (Yaml.parameterTree "string")),
    (.scalar (.bool true), Yaml.parameterTree "number"),
    (.scalar (.float Yaml.threeHalves), Yaml.parameterTree "json"),
    (.scalar (.int 1), Yaml.parameterTree "string")])]

def reversedDocument : Table Value :=
  Yaml.parameterDocument [("1.50", "string"), ("true", "number"), ("1.5", "json"), ("1", "string")]

theorem read_reversedLines :
    Yaml.Tree.read (String.ofList (Yaml.ofLines reversedLines)) = .ok reversedTree := by
  refine Yaml.read_of_readsAs ?_
  rw [Yaml.readsAs, Yaml.Tree.read, Yaml.Token.scan, String.toList_ofList]
  decide +kernel

theorem ignores_keyOrder_reversedTree :
    Yaml.mixedTree.Reorders reversedTree ∧ Yaml.mixedTree.Unambiguous ∧
      (∃ t u, Template.parse (String.ofList (Yaml.ofLines Yaml.mixedLines)) = .ok t ∧
        Template.parse (String.ofList (Yaml.ofLines reversedLines)) = .ok u ∧
        t.parameters.names = ["1", "1.5", "true", "1.50"] ∧
        u.parameters.names = ["1.50", "true", "1.5", "1"] ∧ t.same u = true) ∧
      ∃ e f, Environment.ofDocument Yaml.mixedDocument = .ok e ∧
        Environment.ofDocument reversedDocument = .ok f ∧ e.same f = true := by
  have hblank : Text.isBlank (String.ofList (Yaml.ofLines Yaml.mixedLines)) = false :=
    Yaml.isBlank_ofLines (by decide)
  have hblank' : Text.isBlank (String.ofList (Yaml.ofLines reversedLines)) = false :=
    Yaml.isBlank_ofLines (by decide)
  have ht : Template.parse (String.ofList (Yaml.ofLines Yaml.mixedLines)) =
      .ok (contents Yaml.mixedDocument) :=
    Yaml.parse_eq_contents hblank Yaml.read_mixedLines rfl rfl
  have hu : Template.parse (String.ofList (Yaml.ofLines reversedLines)) =
      .ok (contents reversedDocument) :=
    Yaml.parse_eq_contents hblank' read_reversedLines rfl rfl
  have hd : Yaml.ofTree Yaml.mixedTree = .ok (.object Yaml.mixedDocument) := rfl
  have hd' : Yaml.ofTree reversedTree = .ok (.object reversedDocument) := rfl
  have he := ofDocument_environment_eq (Yaml.wellFormed_of_ofTree hd)
  have hf := ofDocument_environment_eq (Yaml.wellFormed_of_ofTree hd')
  have hreorders : Yaml.mixedTree.Reorders reversedTree := Yaml.Tree.reorders_reverse _ _
  obtain ⟨hconverted, hparsed⟩ := ignores_keyOrder hreorders Yaml.unambiguous_mixedTree
  have henvironment :=
    ((hconverted (Yaml.Tree.proper_of_read Yaml.read_mixedLines)).2 _ _ hd hd').2
  have htemplate :=
    (hparsed _ _ Yaml.read_mixedLines read_reversedLines (hblank.trans hblank'.symm)).1
  exact ⟨hreorders, Yaml.unambiguous_mixedTree, ⟨_, _, ht, hu, rfl, rfl, htemplate.of_ok ht hu⟩,
    _, _, he, hf, henvironment.of_ok he hf⟩

def swappedLines : List String :=
  ["parameters:",
    "  '1':",
    "    type: number",
    "  1:",
    "    type: string"]

def swappedTree : Yaml.Tree :=
  .mapping [(.scalar (.string "parameters"), .mapping [
    (.scalar (.string "1"), Yaml.parameterTree "number"),
    (.scalar (.int 1), Yaml.parameterTree "string")])]

/-- Of keys that clash the later counts. So their order matters. -/
theorem differ_swappedTree :
    Yaml.Tree.read (String.ofList (Yaml.ofLines Yaml.clashLines)) = .ok Yaml.clashTree ∧
      Yaml.Tree.read (String.ofList (Yaml.ofLines swappedLines)) = .ok swappedTree ∧
      Yaml.clashTree.Proper ∧ Yaml.clashTree.Reorders swappedTree ∧
      ∃ t u, Template.parse (String.ofList (Yaml.ofLines Yaml.clashLines)) = .ok t ∧
        Template.parse (String.ofList (Yaml.ofLines swappedLines)) = .ok u ∧ t.same u = false := by
  have hread : Yaml.Tree.read (String.ofList (Yaml.ofLines swappedLines)) = .ok swappedTree := by
    refine Yaml.read_of_readsAs ?_
    rw [Yaml.readsAs, Yaml.Tree.read, Yaml.Token.scan, String.toList_ofList]
    decide +kernel
  have hclash : Template.parse (String.ofList (Yaml.ofLines Yaml.clashLines)) =
      .ok (contents (Yaml.parameterDocument [("1", "number")])) :=
    Yaml.parse_eq_contents (Yaml.isBlank_ofLines (by decide)) Yaml.read_clashLines rfl rfl
  have hswapped : Template.parse (String.ofList (Yaml.ofLines swappedLines)) =
      .ok (contents (Yaml.parameterDocument [("1", "string")])) :=
    Yaml.parse_eq_contents (Yaml.isBlank_ofLines (by decide)) hread rfl rfl
  exact ⟨Yaml.read_clashLines, hread, Yaml.Tree.proper_of_read Yaml.read_clashLines,
    Yaml.Tree.reorders_reverse _ _, _, _, hclash, hswapped, rfl⟩

end RolePlan.Grammar
