import RolePlan.Proofs.Template
import RolePlan.Proofs.Unknown
import RolePlan.Proofs.Yaml

/-!
# What a reader of templates accepts

A reader goes through a document field by field and stops at the first fault. So what it answers is
known from the faults and the contents of the document: the contents, if there is no fault, and the
first fault otherwise.
-/

namespace RolePlan.Grammar

open Document (Entry)
open Proofs (outcome bind_outcome bind_outcome_flatten mapM_outcome foldlM_outcome)

/-! ## Fields -/

section Fields

variable (which : Section) (name : String) (fields : Table Value) (field : String)

theorem value?_eq : Entry.value? ⟨which, name, fields⟩ field = given fields field := rfl

theorem text?_eq : Entry.text? ⟨which, name, fields⟩ field =
    outcome (unfitText which name fields field) (textIn fields field) := by
  rw [Entry.text?, value?_eq, unfitText, unfit, textIn]
  cases given fields field with
  | none => rfl
  | some v => cases v <;> rfl

theorem text_eq : Entry.text ⟨which, name, fields⟩ field =
    outcome (demandedText which name fields field) ((textIn fields field).getD "") := by
  rw [Entry.text, text?_eq, demandedText, unfitText, unfit, absent, textIn]
  cases given fields field with
  | none => rfl
  | some v => cases v <;> rfl

theorem bool?_eq : Entry.bool? ⟨which, name, fields⟩ field =
    outcome (unfit fields field isTruth fun kind =>
      .invalidField which name field (.shape .boolean kind)) (truthIn fields field) := by
  rw [Entry.bool?, value?_eq, unfit, truthIn]
  cases given fields field with
  | none => rfl
  | some v => cases v <;> rfl

theorem list_eq : Entry.list ⟨which, name, fields⟩ field =
    outcome (unfit fields field (isListOf fun _ => true) fun kind =>
      .invalidField which name field (.shape .list kind)) (listIn fields field) := by
  rw [Entry.list, value?_eq, unfit, listIn]
  cases given fields field with
  | none => rfl
  | some v => cases v <;> simp [isListOf, outcome, Entry.invalid]

theorem mapping_eq : Entry.mapping ⟨which, name, fields⟩ field =
    outcome (unfit fields field (isMappingOf fun _ => true) fun kind =>
      .invalidField which name field (.shape .mapping kind)) (mappingIn fields field).entries := by
  rw [Entry.mapping, value?_eq, unfit, mappingIn]
  cases given fields field with
  | none => rfl
  | some v => cases v <;> simp [isMappingOf, outcome, Entry.invalid]

theorem entries_eq (document : Table Value) : Document.entries document which =
    outcome (unfit document which.name (isMappingOf fun _ => true) fun kind =>
      .document (.sectionShape which .mapping kind)) (mappingIn document which.name).entries := by
  rw [Document.entries, unfit, mappingIn, given]
  cases document.find? which.name with
  | none => rfl
  | some v => cases v <;> simp [isMappingOf, outcome]

theorem items_eq (document : Table Value) : Document.items document which =
    outcome (unfit document which.name (isListOf fun _ => true) fun kind =>
      .document (.sectionShape which .list kind)) (listIn document which.name) := by
  rw [Document.items, unfit, listIn, given]
  cases document.find? which.name with
  | none => rfl
  | some v => cases v <;> simp [isListOf, outcome]

end Fields

/-! ## Well-formed parts -/

theorem mem_of_given {fields : Table Value} {field : String} {v : Value}
    (h : given fields field = some v) : (field, v) ∈ fields.entries := by
  rw [given] at h
  split at h
  · cases h
  · cases h
  · next hfind =>
      cases h
      exact Table.mem_of_find? hfind

theorem wellFormed_of_mem_listIn {fields : Table Value} (h : (Value.object fields).WellFormed)
    {field : String} : ∀ v ∈ listIn fields field, v.WellFormed := by
  rw [listIn]
  split
  · next hgiven =>
      have hlist := (Value.wellFormed_object_iff.mp h).2 _ (mem_of_given hgiven)
      exact Value.wellFormed_list_iff.mp hlist
  · simp

theorem wellFormed_mappingIn {fields : Table Value} (h : (Value.object fields).WellFormed)
    (field : String) : (Value.object (mappingIn fields field)).WellFormed := by
  rw [mappingIn]
  split
  · next hgiven => exact (Value.wellFormed_object_iff.mp h).2 _ (mem_of_given hgiven)
  · exact ⟨List.nodup_nil, trivial⟩

/-! ## Entries -/

/-- An entry that is a mapping is read, and any other is a fault. -/
theorem entry_eq {α : Type} {which : Section} {name : String} {v : Value}
    {read : Entry → Except Error α} {faults : Table Value → List Error} {a : α}
    (h : ∀ fields, v = .object fields → read ⟨which, name, fields⟩ = outcome (faults fields) a) :
    (Entry.of which name v >>= read) = outcome (recordFaults which name faults v) a := by
  cases v with
  | object fields => exact h fields rfl
  | _ => rfl

/-- What is left of a constraint without its description is one entry, or there is a fault. -/
theorem readConstraint_eq (parameter : String) {v : Value} (hv : v.WellFormed) :
    Template.readConstraint parameter v =
      outcome (constraintFaults parameter v) (constraintOf v) := by
  cases v with
  | object fields =>
      have hperm := Table.perm_eraseBySwap (Value.wellFormed_object_iff.mp hv).1 "description"
      rw [constraintFaults, unfit, constraintOf, fieldsOf, Value.object?, Option.getD_some, textIn,
        given, Table.size, ← hperm.length_eq, Table.names]
      simp only [Template.readConstraint, pure_bind]
      rcases hleft : (fields.eraseBySwap "description").entries with
        _ | ⟨entry, _ | ⟨second, rest⟩⟩
      -- Where one entry is left, it is the one that the contents have.
      on_goal 2 =>
        rw [hleft, List.singleton_perm] at hperm
        rw [← hperm]
      all_goals
        cases fields.find? "description" with
        | none => rfl
        | some v => cases v <;> rfl
  | _ => rfl

theorem readType_eq (name : String) (fields : Table Value) :
    Template.readType ⟨.parameters, name, fields⟩ =
      outcome (typeFaults name fields) ((textIn fields "type").getD "") := by
  rw [Template.readType, typeFaults, textIn, given]
  cases fields.find? "type" with
  | none => rfl
  | some v => cases v <;> rfl

theorem readParameter_eq (name : String) {v : Value} (hv : v.WellFormed) :
    Template.readParameter name v = outcome (parameterFaults name v) (parameterOf v) := by
  refine entry_eq fun fields hfields => ?_
  subst hfields
  have hconstraints : (listIn fields "constraints").mapM (Template.readConstraint name) =
      outcome ((listIn fields "constraints").flatMap (constraintFaults name))
        ((listIn fields "constraints").map constraintOf) :=
    mapM_outcome fun item hi => readConstraint_eq name (wellFormed_of_mem_listIn hv item hi)
  exact bind_outcome_flatten (readType_eq name fields) <| bind_outcome_flatten (text?_eq _ _ _ _) <|
    bind_outcome_flatten (text?_eq _ _ _ _) <| bind_outcome_flatten (bool?_eq _ _ _ _) <|
    bind_outcome_flatten (list_eq _ _ _ _) <| bind_outcome_flatten hconstraints rfl

theorem readMember_eq (name : String) (fields : Table Value) (g : ParameterGroup) (v : Value) :
    Template.readMember ⟨.parameterGroups, name, fields⟩ g v =
      outcome (memberFaults name v) (addMember g v) := by
  cases v <;> rfl

theorem readGroup_eq (index : Nat) (v : Value) : Template.readGroup index v =
    outcome (groupFaults ("#" ++ toString index) v) (groupOf v) := by
  refine entry_eq fun fields hfields => ?_
  subst hfields
  refine bind_outcome_flatten (text_eq _ _ _ _) <| bind_outcome_flatten (text?_eq _ _ _ _) <|
    bind_outcome_flatten (list_eq _ _ _ _) ?_
  rw [List.flatten_singleton]
  exact foldlM_outcome (readMember_eq _ fields) _ _

theorem readResource_eq (id : String) {v : Value} (hv : v.WellFormed) :
    Template.readResource id v = outcome (resourceFaults id v) (resourceOf v) := by
  refine entry_eq fun fields hfields => ?_
  subst hfields
  have hproperties : Table.ofList (mappingIn fields "properties").entries =
      mappingIn fields "properties" :=
    Table.ofList_of_nodup (wellFormed_mappingIn hv "properties").1
  refine bind_outcome_flatten (text_eq _ _ _ _) <| bind_outcome_flatten (mapping_eq _ _ _ _) ?_
  rw [hproperties]
  rfl

theorem readOutput_eq (name : String) (v : Value) :
    Template.readOutput name v = outcome (outputFaults name v) (outputOf v) := by
  refine entry_eq fun fields hfields => ?_
  subst hfields
  rw [outputOf, fieldsOf, Value.object?, Option.getD_some, demands]
  cases fields.find? "value" with
  | none => rfl
  | some value =>
      change _ = outcome (List.flatten [unfitText .outputs name fields "description"]) _
      exact bind_outcome_flatten (text?_eq _ _ _ _) rfl

/-! ## Documents -/

/-- Entries of different names are read one after another, and none of the names is taken. -/
theorem readEntries_eq {α : Type} {item : Item} {read : String → Value → Except Error α}
    {faults : String → Value → List Error} {content : Value → α} {entries : List (String × Value)}
    (hnodup : (entries.map (·.1)).Nodup)
    (hread : ∀ entry ∈ entries,
      read entry.1 entry.2 = outcome (faults entry.1 entry.2) (content entry.2)) :
    Template.readEntries item read entries =
      outcome (entries.flatMap fun entry => faults entry.1 entry.2)
        (Table.map content ⟨entries⟩) := by
  suffices hgo : ∀ t : Table α, (t.names ++ entries.map (·.1)).Nodup →
      entries.foldlM (fun table entry => do
        Template.add item table entry.1 (← read entry.1 entry.2)) t =
      outcome (entries.flatMap fun entry => faults entry.1 entry.2)
        (t.extend (entries.map fun entry => (entry.1, content entry.2))) from
    hgo .empty (by simpa using hnodup)
  clear hnodup
  induction entries with
  | nil =>
      intro t _
      rw [List.map_nil, Table.extend_nil]
      rfl
  | cons entry rest ih =>
      intro t ht
      obtain ⟨hnew, hnext⟩ := Table.nodup_names_extend ht (content entry.2)
      rw [List.foldlM_cons, hread entry List.mem_cons_self, List.flatMap_cons, List.map_cons,
        ← List.singleton_append, ← Table.extend_extend]
      cases faults entry.1 entry.2 with
      | cons e more => rfl
      | nil =>
          change (Template.add item t entry.1 (content entry.2) >>= _) = _
          rw [Template.add_of_not_mem hnew]
          exact ih (fun other ho => hread other (List.mem_cons_of_mem entry ho)) _ hnext

theorem readSection_eq {α : Type} {item : Item} {read : String → Value → Except Error α}
    {faults : String → Value → List Error} {content : Value → α} {document : Table Value}
    (h : (Value.object document).WellFormed) (which : Section)
    (hread : ∀ name v, v.WellFormed → read name v = outcome (faults name v) (content v)) :
    readSection item read document which =
      outcome (sectionFaults document which faults)
        ((mappingIn document which.name).map content) := by
  obtain ⟨hdistinct, hvalues⟩ :=
    Value.wellFormed_object_iff.mp (wellFormed_mappingIn h which.name)
  exact bind_outcome (entries_eq which document) <|
    readEntries_eq hdistinct fun entry he => hread entry.1 entry.2 (hvalues entry he)

theorem readGroups_eq (document : Table Value) : readGroups document =
    outcome (groupsFaults document) ((listIn document "parameter_groups").map groupOf) := by
  have hplaces : (listIn document "parameter_groups").zipIdx.map (fun item => groupOf item.1) =
      (listIn document "parameter_groups").map groupOf := by
    conv_rhs => rw [← List.zipIdx_map_fst 0 (listIn document "parameter_groups"), List.map_map]
    rfl
  rw [← hplaces]
  exact bind_outcome (items_eq .parameterGroups document) <|
    mapM_outcome fun item _ => readGroup_eq item.2 item.1

theorem readVersion_eq (document : Table Value) : Template.readVersion document =
    (textIn document "heat_template_version").getD "2014-10-16" := by
  rw [Template.readVersion, textIn, given]
  cases document.find? "heat_template_version" with
  | none => rfl
  | some v => cases v <;> rfl

/-- What is read from a document is known from its faults and its contents. -/
theorem ofDocument_eq {document : Table Value} (h : (Value.object document).WellFormed) :
    Template.ofDocument document = outcome (faults document) (contents document) := by
  rw [ofDocument_eq_sections, readVersion_eq]
  exact bind_outcome_flatten (text?_eq _ _ _ _) <|
    bind_outcome_flatten (readSection_eq h .parameters fun name _ => readParameter_eq name) <|
    bind_outcome_flatten (readGroups_eq document) <|
    bind_outcome_flatten (readSection_eq h .resources fun name _ => readResource_eq name) <|
    bind_outcome_flatten (readSection_eq h .outputs fun name v _ => readOutput_eq name v) rfl

/-- A template is read from just those documents that keep to the grammar. It has what the document
holds, entry by entry and in the same order, and what is not known makes no difference. From any
other document the reader gets the first of its faults. -/
theorem accepts_exactly {document : Table Value} (h : (Value.object document).WellFormed) :
    (∀ text, Document.load text = .ok document →
      Template.parse text = Template.ofDocument document) ∧
    ((∃ t, Template.ofDocument document = .ok t) ↔ isTemplate document = true) ∧
    (∀ t, Template.ofDocument document = .ok t → t = contents document ∧
      t.parameters.names = (mappingIn document "parameters").names ∧
      t.groups.length = (listIn document "parameter_groups").length ∧
      t.resources.names = (mappingIn document "resources").names ∧
      t.resources.map (·.properties.names) = (mappingIn document "resources").map
        (fun v => (mappingIn (fieldsOf v) "properties").names) ∧
      t.outputs.names = (mappingIn document "outputs").names) ∧
    (∀ other, relevant other = relevant document →
      Template.ofDocument other = Template.ofDocument document) ∧
    ∀ e, Template.ofDocument document = .error e ↔ (faults document).head? = some e := by
  have heq := ofDocument_eq h
  refine ⟨fun text hload => ?_, ?_, fun t ht => ?_, fun other hother => ?_, fun e => ?_⟩
  · rw [Template.parse, hload]
    rfl
  · rw [heq, Proofs.exists_ok_outcome_iff, faults_eq_nil_iff]
  · rw [heq] at ht
    obtain rfl := Proofs.outcome_eq_ok ht
    have hproperties : (contents document).resources.map (·.properties.names) =
        (mappingIn document "resources").map
          fun v => (mappingIn (fieldsOf v) "properties").names := by
      rw [contents, Table.map_map]
      exact Table.map_congr fun entry _ => Table.names_map _ _
    exact ⟨rfl, Table.names_map _ _, List.length_map _, Table.names_map _ _, hproperties,
      Table.names_map _ _⟩
  · rw [← ofDocument_relevant, hother, ofDocument_relevant]
  · rw [heq, Proofs.outcome_eq_error_iff]

/-- A text with a section, a field and a group member too many, line by line. -/
def looseLines : List String :=
  ["note:",
    "- 1",
    "parameters:",
    "  p:",
    "    type: string",
    "    label: 7",
    "    hint: x",
    "parameter_groups:",
    "- label: true",
    "  parameters:",
    "  - p",
    "  - p",
    "resources:",
    "  r:",
    "    type: T",
    "    properties:",
    "      b: null",
    "      a: 1",
    "outputs:"]

def looseText : String := String.ofList (Yaml.ofLines looseLines)

def looseDocument : Table Value :=
  let parameter : Table Value :=
    ⟨[("type", .string "string"), ("label", .int 7), ("hint", .string "x")]⟩
  let group : Table Value :=
    ⟨[("label", .bool true), ("parameters", .list [.string "p", .string "p"])]⟩
  let resource : Table Value :=
    ⟨[("type", .string "T"), ("properties", .object ⟨[("b", .null), ("a", .int 1)]⟩)]⟩
  ⟨[("note", .list [.int 1]), ("parameters", .single "p" (.object parameter)),
    ("parameter_groups", .list [.object group]), ("resources", .single "r" (.object resource)),
    ("outputs", .null)]⟩

/-- Two faults: the type of a parameter, and behind it the form of a section. -/
def faultyDocument : Table Value :=
  ⟨[("resources", .bool true),
    ("parameters", .single "p" (.object ⟨[("type", .int 1), ("hidden", .null)]⟩))]⟩

theorem accepts_exactly_looseDocument :
    Document.load looseText = .ok looseDocument ∧
      Template.parse looseText = .ok (contents looseDocument) ∧
      (contents looseDocument).groups = [{ label := "true", parameters := ["p"] }] ∧
      (contents looseDocument).resources.map (·.properties.names) = ⟨[("r", ["b", "a"])]⟩ ∧
      Template.ofDocument (relevant looseDocument) = .ok (contents looseDocument) ∧
      Template.ofDocument faultyDocument =
        .error (.invalidField .parameters "p" "type" (.shape .string .number)) := by
  have hloose : (Value.object looseDocument).WellFormed := by
    simp [looseDocument, Value.WellFormed, Value.WellFormedItems, Value.WellFormedEntries,
      Value.single]
  have hfaulty : (Value.object faultyDocument).WellFormed := by
    simp [faultyDocument, Value.WellFormed, Value.WellFormedEntries, Value.single]
  have hread : Yaml.Tree.read looseText = .ok (Yaml.Tree.ofValue (.object looseDocument)) := by
    refine Yaml.read_of_readsAs ?_
    rw [Yaml.readsAs, Yaml.Tree.read, Yaml.Token.scan, looseText, String.toList_ofList]
    decide +kernel
  have hload : Document.load looseText = .ok looseDocument :=
    Yaml.load_of_read hloose (Yaml.isBlank_ofLines (by decide)) hread
  obtain ⟨hparse, haccepts, hholds, hother, -⟩ := accepts_exactly hloose
  obtain ⟨-, -, -, -, hrefuses⟩ := accepts_exactly hfaulty
  obtain ⟨t, ht⟩ := haccepts.mpr (by decide +kernel)
  obtain ⟨rfl, -, -, -, hproperties, -⟩ := hholds t ht
  exact ⟨hload, (hparse looseText hload).trans ht, by decide +kernel, hproperties,
    (hother _ rfl).trans ht, (hrefuses _).mpr rfl⟩

end RolePlan.Grammar
