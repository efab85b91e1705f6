import RolePlan.Proofs.Grammar

/-!
# Parts of a document that are passed over

A document can have sections that no template has, and entries can have fields that are not known.
A reader passes them over: what it answers depends on the relevant part of the document only.
-/

namespace RolePlan.Grammar

open Document (Entry)

/-! ## Sections -/

def readSection {α : Type} (item : Item) (read : String → Value → Except Error α)
    (document : Table Value) (which : Section) : Except Error (Table α) := do
  Template.readEntries item read (← Document.entries document which)

def readGroups (document : Table Value) : Except Error (List ParameterGroup) := do
  (← Document.items document .parameterGroups).zipIdx.mapM fun item =>
    Template.readGroup item.2 item.1

/-- A document is read section by section. -/
theorem ofDocument_eq_sections (document : Table Value) : Template.ofDocument document = (do
    let description ← Entry.text? ⟨.template, "<root>", document⟩ "description"
    let parameters ← readSection .parameter Template.readParameter document .parameters
    let groups ← readGroups document
    let resources ← readSection .resource Template.readResource document .resources
    let outputs ← readSection .output Template.readOutput document .outputs
    return { version := Template.readVersion document, description, parameters, groups, resources,
             outputs }) := by
  simp only [Template.ofDocument, readSection, readGroups, bind_assoc]

/-! ## What is relevant -/

def parameterFields : List String :=
  ["type", "description", "label", "default", "hidden", "constraints"]

def groupFields : List String := ["label", "description", "parameters"]

def resourceFields : List String :=
  ["type", "metadata", "depends_on", "update_policy", "deletion_policy", "properties"]

def outputFields : List String := ["value", "description"]

/-- The fields that the entries of a section can have. -/
def knownFields : List (String × List String) :=
  [("parameters", parameterFields), ("parameter_groups", groupFields),
    ("resources", resourceFields), ("outputs", outputFields)]

/-- An entry with its known fields only. What is no mapping stays, since it is refused as it is. -/
def pruneEntry (known : List String) : Value → Value
  | .object fields => .object (fields.keep known.contains)
  | other => other

def pruneEntries (known : List String) : Value → Value
  | .object entries => .object (entries.map (pruneEntry known))
  | .list items => .list (items.map (pruneEntry known))
  | other => other

def pruneSection (name : String) (v : Value) : Value :=
  match knownFields.lookup name with
  | some known => pruneEntries known v
  | none => v

/-- The known sections of a document, with the known fields of their entries. -/
def relevant (document : Table Value) : Table Value :=
  ⟨(document.keep Template.sectionNames.contains).entries.map fun entry =>
    (entry.1, pruneSection entry.1 entry.2)⟩

theorem find?_relevant (document : Table Value) {name : String}
    (h : Template.sectionNames.contains name = true) :
    (relevant document).find? name = (document.find? name).map (pruneSection name) := by
  rw [← Table.find?_keep h document]
  exact Table.lookup_map_entries pruneSection _ name

/-! ## Entries -/

section Entries

variable (which : Section) (name : String) {known : List String} {fields : Table Value}
  {field : String} (h : known.contains field = true)

include h

theorem value?_keep : Entry.value? ⟨which, name, fields.keep known.contains⟩ field =
    Entry.value? ⟨which, name, fields⟩ field := by
  rw [Entry.value?, Table.find?_keep h]
  rfl

theorem text?_keep : Entry.text? ⟨which, name, fields.keep known.contains⟩ field =
    Entry.text? ⟨which, name, fields⟩ field := by
  rw [Entry.text?, value?_keep which name h]
  rfl

theorem text_keep : Entry.text ⟨which, name, fields.keep known.contains⟩ field =
    Entry.text ⟨which, name, fields⟩ field := by
  rw [Entry.text, text?_keep which name h]
  rfl

theorem bool?_keep : Entry.bool? ⟨which, name, fields.keep known.contains⟩ field =
    Entry.bool? ⟨which, name, fields⟩ field := by
  rw [Entry.bool?, value?_keep which name h]
  rfl

theorem list_keep : Entry.list ⟨which, name, fields.keep known.contains⟩ field =
    Entry.list ⟨which, name, fields⟩ field := by
  rw [Entry.list, value?_keep which name h]
  rfl

theorem mapping_keep : Entry.mapping ⟨which, name, fields.keep known.contains⟩ field =
    Entry.mapping ⟨which, name, fields⟩ field := by
  rw [Entry.mapping, value?_keep which name h]
  rfl

end Entries

/-- What is read from an entry does not change with fields that are not looked at. -/
theorem entry_pruneEntry {α : Type} {which : Section} {name : String} {known : List String}
    {read : Entry → Except Error α}
    (h : ∀ fields, read ⟨which, name, fields.keep known.contains⟩ = read ⟨which, name, fields⟩)
    (v : Value) :
    (Entry.of which name (pruneEntry known v) >>= read) = (Entry.of which name v >>= read) := by
  cases v with
  | object fields => exact h fields
  | _ => rfl

theorem readParameter_pruneEntry (name : String) (v : Value) :
    Template.readParameter name (pruneEntry parameterFields v) =
      Template.readParameter name v := by
  refine entry_pruneEntry (fun fields => ?_) v
  simp (disch := decide) only [Template.readType, Table.find?_keep, text?_keep, bool?_keep,
    list_keep, value?_keep]
  -- The entries still differ, but only their section and their name are left, for the errors.
  rfl

theorem readGroup_pruneEntry (index : Nat) (v : Value) :
    Template.readGroup index (pruneEntry groupFields v) = Template.readGroup index v := by
  refine entry_pruneEntry (fun fields => ?_) v
  simp (disch := decide) only [text?_keep, text_keep, list_keep]
  rfl

theorem readResource_pruneEntry (id : String) (v : Value) :
    Template.readResource id (pruneEntry resourceFields v) = Template.readResource id v := by
  refine entry_pruneEntry (fun fields => ?_) v
  simp (disch := decide) only [text_keep, mapping_keep, value?_keep]

theorem readOutput_pruneEntry (name : String) (v : Value) :
    Template.readOutput name (pruneEntry outputFields v) = Template.readOutput name v := by
  refine entry_pruneEntry (fun fields => ?_) v
  simp (disch := decide) only [Table.find?_keep, text?_keep]
  rfl

/-! ## Documents -/

theorem readSection_relevant {α : Type} {item : Item} {read : String → Value → Except Error α}
    {which : Section} {known : List String} (document : Table Value)
    (hknown : knownFields.lookup which.name = some known)
    (hsection : Template.sectionNames.contains which.name = true)
    (hread : ∀ name v, read name (pruneEntry known v) = read name v) :
    readSection item read (relevant document) which = readSection item read document which := by
  have hprune (v : Value) : pruneSection which.name v = pruneEntries known v := by
    rw [pruneSection, hknown]
  rw [readSection, readSection, Document.entries, Document.entries,
    find?_relevant document hsection]
  cases document.find? which.name with
  | none => rfl
  | some v =>
      rw [Option.map_some, hprune]
      cases v with
      | object entries =>
          change List.foldlM _ _ (entries.entries.map _) = _
          rw [List.foldlM_map]
          simp only [hread]
          rfl
      | _ => rfl

theorem readGroups_relevant (document : Table Value) :
    readGroups (relevant document) = readGroups document := by
  rw [readGroups, readGroups, Document.items, Document.items,
    find?_relevant document (by decide)]
  cases document.find? (Section.name .parameterGroups) with
  | none => rfl
  | some v =>
      cases v with
      | list items =>
          change List.mapM _ (List.zipIdx (items.map _)) = List.mapM _ items.zipIdx
          rw [List.zipIdx_map, List.mapM_map]
          simp only [Function.comp_def, Prod.map, readGroup_pruneEntry]
          rfl
      | _ => rfl

/-- A reader answers the same whatever it is that it passes over. -/
theorem ofDocument_relevant (document : Table Value) :
    Template.ofDocument (relevant document) = Template.ofDocument document := by
  have hkept {name : String} (hname : Template.sectionNames.contains name = true)
      (hnone : knownFields.lookup name = none) :
      (relevant document).find? name = document.find? name := by
    have hprune : pruneSection name = id := by
      funext v
      rw [pruneSection, hnone]
      rfl
    rw [find?_relevant document hname, hprune, Option.map_id, id]
  have hversion : Template.readVersion (relevant document) = Template.readVersion document := by
    rw [Template.readVersion, hkept (by decide) (by decide)]
    rfl
  have hdescription : Entry.text? ⟨.template, "<root>", relevant document⟩ "description" =
      Entry.text? ⟨.template, "<root>", document⟩ "description" := by
    rw [Entry.text?, Entry.value?, hkept (by decide) (by decide)]
    rfl
  rw [ofDocument_eq_sections, ofDocument_eq_sections, hversion, hdescription,
    readSection_relevant document rfl (by decide) readParameter_pruneEntry,
    readGroups_relevant document,
    readSection_relevant document rfl (by decide) readResource_pruneEntry,
    readSection_relevant document rfl (by decide) readOutput_pruneEntry]

end RolePlan.Grammar
