import RolePlan.Environment
import RolePlan.Proofs.Except
import RolePlan.Proofs.WellFormed
import RolePlan.Template.Read

/-!
# Reading what was written

The document of a template describes the template with its inline resources expanded, if no setting
of it would get lost; the document of an environment describes the environment itself.
-/

namespace RolePlan

open Document (Entry)

namespace Template

/-! ## Entries of a template -/

theorem readConstraint_toValue {c : Constraint} (h : c.type ≠ "description")
    (parameter : String) : readConstraint parameter c.toValue = .ok c := by
  obtain ⟨type, definition, description⟩ := c
  have hnew : "description" ∉ (⟨[(type, definition)]⟩ : Table Value).names := by
    simpa [Table.names] using fun he => h he.symm
  cases description with
  | none =>
      have hvalue : (Constraint.toValue ⟨type, definition, none⟩) =
          .object ⟨[(type, definition)]⟩ :=
        congrArg Value.object (Table.ofList_of_nodup (by simp [optionalText, optionalField]))
      have hfind : (⟨[(type, definition)]⟩ : Table Value).find? "description" = none := by
        simpa [Table.find?, List.lookup_eq_none_iff] using fun he => h he.symm
      simp only [hvalue, readConstraint, pure_bind, hfind, Table.eraseBySwap_of_not_mem hnew]
      rfl
  | some text =>
      have hvalue : (Constraint.toValue ⟨type, definition, some text⟩) =
          .object (Table.extend ⟨[(type, definition)]⟩ [("description", .string text)]) :=
        congrArg Value.object (Table.ofList_of_nodup
          (by simpa [optionalText, optionalField] using h))
      have hfind : (Table.extend ⟨[(type, definition)]⟩
          [("description", Value.string text)]).find? "description" = some (.string text) := by
        have hne : ("description" == type) = false := beq_eq_false_iff_ne.mpr fun he => h he.symm
        simp [Table.find?, Table.extend, List.lookup_cons, hne]
      simp only [hvalue, readConstraint, pure_bind, hfind, Table.eraseBySwap_extend hnew]
      rfl

theorem readParameter_toValue {p : Parameter} (h : p.Storable) (name : String) :
    readParameter name p.toValue = .ok p := by
  let e : Entry := ⟨.parameters, name, ⟨("type", .string p.type) ::
    (optionalText "description" p.description ++ optionalText "label" p.label ++
      optionalField "default" p.default ++ optionalField "hidden" (p.hidden.map .bool) ++
      listField "constraints" (p.constraints.map Constraint.toValue))⟩⟩
  have hof : Entry.of .parameters name p.toValue = .ok e := rfl
  have htype : readType e = .ok p.type := rfl
  have hdescription : e.text? "description" = .ok p.description := Entry.text?_of_find? (by
    simp [e, Table.find?, List.lookup_cons, List.lookup_append])
  have hlabel : e.text? "label" = .ok p.label := Entry.text?_of_find? (by
    simp [e, Table.find?, List.lookup_cons, List.lookup_append])
  have hdefault : e.value? "default" = p.default := Entry.value?_of_find? (by
    simp [e, Table.find?, List.lookup_cons, List.lookup_append]) h.default
  have hhidden : e.bool? "hidden" = .ok p.hidden := Entry.bool?_of_find? (by
    simp [e, Table.find?, List.lookup_cons, List.lookup_append])
  have hconstraints : e.list "constraints" = .ok (p.constraints.map Constraint.toValue) :=
    Entry.list_of_find?_listField (by
      simp [e, Table.find?, List.lookup_cons, List.lookup_append])
  have hmap : (p.constraints.map Constraint.toValue).mapM (readConstraint name) =
      .ok p.constraints :=
    Proofs.mapM_map_eq_ok fun c hc => readConstraint_toValue (h.constraints c hc) name
  simp only [readParameter, hof, htype, hdescription, hlabel, hhidden, hconstraints, hmap,
    hdefault, bind, Except.bind]
  rfl

theorem foldlM_readMember (e : Entry) {g : ParameterGroup} (names : List String)
    (h : (g.parameters ++ names).Nodup) :
    (names.map Value.string).foldlM (readMember e) g =
      .ok { g with parameters := g.parameters ++ names } := by
  induction names generalizing g with
  | nil => simp [pure, Except.pure]
  | cons name rest ih =>
      have hnew : g.contains name = false := by
        rw [ParameterGroup.contains, List.contains_eq_mem, decide_eq_false_iff_not]
        exact fun hm => (List.nodup_append.mp h).2.2 name hm name List.mem_cons_self rfl
      have hfirst : readMember e g (.string name) =
          .ok { g with parameters := g.parameters ++ [name] } := by
        simp [readMember, Value.scalarText?, ParameterGroup.add, hnew]
      rw [List.map_cons, List.foldlM_cons, hfirst]
      have hrest := ih (g := { g with parameters := g.parameters ++ [name] }) (by simpa using h)
      rw [List.append_assoc] at hrest
      exact hrest

theorem readGroup_toValue {g : ParameterGroup} (h : g.parameters.Nodup) (index : Nat) :
    readGroup index g.toValue = .ok g := by
  let e : Entry := ⟨.parameterGroups, "#" ++ toString index, ⟨("label", .string g.label) ::
    (optionalText "description" g.description ++
      [("parameters", .list (g.parameters.map .string))])⟩⟩
  have hof : Entry.of .parameterGroups ("#" ++ toString index) g.toValue = .ok e := rfl
  have hlabel : e.text "label" = .ok g.label := Entry.text_of_find? rfl
  have hdescription : e.text? "description" = .ok g.description := Entry.text?_of_find? (by
    simp [e, Table.find?, List.lookup_cons, List.lookup_append])
  have hmembers : e.list "parameters" = .ok (g.parameters.map .string) := Entry.list_of_find? (by
    simp [e, Table.find?, List.lookup_cons, List.lookup_append])
  have hfold := foldlM_readMember e (g := { label := g.label, description := g.description })
    g.parameters h
  simp only [readGroup, hof, hlabel, hdescription, hmembers, hfold, bind, Except.bind]
  rfl

theorem readResource_toValue {r : Resource} (hstorable : r.Storable)
    (hdistinct : r.properties.Distinct) (id : String) :
    readResource id r.toValue = .ok r.expand := by
  let e : Entry := ⟨.resources, id, ⟨("type", .string r.type) ::
    (optionalField "metadata" r.metadata ++ optionalField "depends_on" r.dependsOn ++
      optionalField "update_policy" r.updatePolicy ++
      optionalField "deletion_policy" r.deletionPolicy ++
      mappingField "properties" (r.properties.map Resource.propertyValue))⟩⟩
  have hof : Entry.of .resources id r.toValue = .ok e := by
    rw [Resource.toValue_eq]
    rfl
  have htype : e.text "type" = .ok r.type := Entry.text_of_find? rfl
  have hproperties : e.mapping "properties" =
      .ok (r.properties.map Resource.propertyValue).entries := Entry.mapping_of_find? (by
    simp [e, Table.find?, List.lookup_cons, List.lookup_append])
  have hmetadata : e.value? "metadata" = r.metadata := Entry.value?_of_find? (by
    simp [e, Table.find?, List.lookup_cons, List.lookup_append]) hstorable.metadata
  have hdependsOn : e.value? "depends_on" = r.dependsOn := Entry.value?_of_find? (by
    simp [e, Table.find?, List.lookup_cons, List.lookup_append]) hstorable.dependsOn
  have hupdate : e.value? "update_policy" = r.updatePolicy := Entry.value?_of_find? (by
    simp [e, Table.find?, List.lookup_cons, List.lookup_append]) hstorable.updatePolicy
  have hdeletion : e.value? "deletion_policy" = r.deletionPolicy := Entry.value?_of_find? (by
    simp [e, Table.find?, List.lookup_cons, List.lookup_append]) hstorable.deletionPolicy
  have htable : Table.ofList (r.properties.map Resource.propertyValue).entries =
      r.properties.map Resource.propertyValue := Table.ofList_of_nodup (hdistinct.map _)
  simp only [readResource, hof, htype, hproperties, hmetadata, hdependsOn, hupdate, hdeletion,
    htable, Table.map_map, bind, Except.bind]
  rfl

theorem readOutput_toValue (o : Output) (name : String) : readOutput name o.toValue = .ok o := by
  let e : Entry := ⟨.outputs, name, ⟨("value", o.value) ::
    optionalText "description" o.description⟩⟩
  have hof : Entry.of .outputs name o.toValue = .ok e := rfl
  have hvalue : e.fields.find? "value" = some o.value := rfl
  have hdescription : e.text? "description" = .ok o.description := Entry.text?_of_find? (by
    simp [e, Table.find?, List.lookup_cons])
  simp only [readOutput, hof, hvalue, hdescription, bind, Except.bind]
  rfl

/-! ## Sections -/

theorem readEntries_map {α : Type} (item : Item) {read : String → Value → Except Error α}
    {f : α → Value} {g : α → α} {t : Table α} (ht : t.Distinct)
    (hread : ∀ entry ∈ t.entries, read entry.1 (f entry.2) = .ok (g entry.2)) :
    readEntries item read (t.map f).entries = .ok (t.map g) := by
  obtain ⟨entries⟩ := t
  suffices h : ∀ done : Table α, (done.names ++ entries.map (·.1)).Nodup →
      (entries.map fun entry => (entry.1, f entry.2)).foldlM
        (fun table entry => do add item table entry.1 (← read entry.1 entry.2)) done =
          .ok (done.extend (entries.map fun entry => (entry.1, g entry.2))) from
    h .empty ht
  clear ht
  induction entries with
  | nil =>
      intro done _
      rw [List.map_nil, List.map_nil, Table.extend_nil]
      rfl
  | cons entry rest ih =>
      intro done hd
      obtain ⟨hnew, hd⟩ := Table.nodup_names_extend hd (g entry.2)
      have hrest := ih (fun other ho => hread other (List.mem_cons_of_mem entry ho)) _ hd
      rw [Table.extend_extend] at hrest
      rw [List.map_cons, List.foldlM_cons, hread entry List.mem_cons_self]
      simp only [bind, Except.bind, add_of_not_mem hnew]
      exact hrest

theorem readEntries_map_same {α : Type} (item : Item) {read : String → Value → Except Error α}
    {f : α → Value} {t : Table α} (ht : t.Distinct)
    (hread : ∀ entry ∈ t.entries, read entry.1 (f entry.2) = .ok entry.2) :
    readEntries item read (t.map f).entries = .ok t := by
  rw [readEntries_map item (g := id) ht hread]
  exact congrArg Except.ok (Table.map_eq_self fun _ _ => rfl)

/-- The groups are read in their order, each told its place. -/
theorem mapM_readGroup {groups : List ParameterGroup} (h : ∀ g ∈ groups, g.parameters.Nodup) :
    ((groups.map ParameterGroup.toValue).zipIdx.mapM fun (value, index) => readGroup index value) =
      .ok groups := by
  suffices hgo : ∀ first, ((groups.map ParameterGroup.toValue).zipIdx first).mapM
      (fun (value, index) => readGroup index value) = .ok groups from hgo 0
  induction groups with
  | nil => exact fun _ => rfl
  | cons g rest ih =>
      intro first
      rw [List.map_cons, List.zipIdx_cons, List.mapM_cons]
      simp only [readGroup_toValue (h g List.mem_cons_self), bind, Except.bind,
        ih (fun other ho => h other (List.mem_cons_of_mem g ho)) (first + 1)]
      rfl

theorem entries_of_find? {document fields : Table Value} {which : Section}
    (h : document.find? which.name = if fields.isEmpty then none else some (.object fields)) :
    Document.entries document which = .ok fields.entries := by
  obtain ⟨entries⟩ := fields
  cases entries <;> simp [Document.entries, h, Table.isEmpty]

theorem items_of_find? {document : Table Value} {which : Section} {items : List Value}
    (h : document.find? which.name = if items.isEmpty then none else some (.list items)) :
    Document.items document which = .ok items := by
  cases items <;> simp [Document.items, h]

/-! ## Documents -/

/-- The document of a template describes that template with its inline resources expanded. -/
theorem ofDocument_toDocument {t : Template} (hwell : t.WellFormed) (hstorable : t.Storable) :
    ofDocument t.toDocument = .ok t.expand := by
  have hversion : readVersion t.toDocument = t.version := rfl
  have hdescription : Entry.text? ⟨.template, "<root>", t.toDocument⟩ "description" =
      .ok t.description := Entry.text?_of_find? (by
    simp [toDocument, Table.find?, List.lookup_cons, List.lookup_append])
  have hparameters : Document.entries t.toDocument .parameters =
      .ok (t.parameters.map Parameter.toValue).entries := entries_of_find? (by
    simp [toDocument, Section.name, Table.find?, List.lookup_cons, List.lookup_append])
  have hgroups : Document.items t.toDocument .parameterGroups =
      .ok (t.groups.map ParameterGroup.toValue) := items_of_find? (by
    simp [toDocument, Section.name, Table.find?, List.lookup_cons, List.lookup_append])
  have hresources : Document.entries t.toDocument .resources =
      .ok (t.resources.map Resource.toValue).entries := by
    simp [Document.entries, toDocument, Section.name, Table.find?, List.lookup_cons,
      List.lookup_append]
  have houtputs : Document.entries t.toDocument .outputs =
      .ok (t.outputs.map Output.toValue).entries := entries_of_find? (by
    simp [toDocument, Section.name, Table.find?, List.lookup_cons, List.lookup_append])
  have hreadParameters := readEntries_map_same .parameter hwell.parameters
    fun entry he => readParameter_toValue (hstorable.ofParameters entry he) entry.1
  have hreadResources := readEntries_map .resource hwell.resources
    fun entry he => readResource_toValue (hstorable.ofResources entry he)
      (hwell.ofResources entry he).distinct entry.1
  have hreadOutputs := readEntries_map_same .output hwell.outputs
    fun entry _ => readOutput_toValue entry.2 entry.1
  simp only [ofDocument, hversion, hdescription, hparameters, hgroups, hresources, houtputs,
    hreadParameters, mapM_readGroup hwell.ofGroups, hreadResources, hreadOutputs, bind,
    Except.bind]
  rfl

end Template

namespace Environment

theorem foldlM_addValue {e : Environment} {entries : List (String × Value)}
    (h : (e.parameters.names ++ entries.map (·.1)).Nodup) :
    entries.foldlM addValue e =
      .ok { e with parameters := e.parameters.extend entries } := by
  induction entries generalizing e with
  | nil => simp [pure, Except.pure]
  | cons entry rest ih =>
      obtain ⟨hnew, h⟩ := Table.nodup_names_extend h entry.2
      have hrest := ih (e := { e with parameters := e.parameters.extend [(entry.1, entry.2)] }) h
      rw [Table.extend_extend] at hrest
      rw [List.foldlM_cons, addValue, addParameter_of_not_mem hnew]
      exact hrest

theorem foldlM_addFile {e : Environment} {entries : List (String × String)}
    (h : (e.registry.names ++ entries.map (·.1)).Nodup) :
    (entries.map fun entry => (entry.1, Value.string entry.2)).foldlM addFile e =
      .ok { e with registry := e.registry.extend entries } := by
  induction entries generalizing e with
  | nil => simp [pure, Except.pure]
  | cons entry rest ih =>
      obtain ⟨hnew, h⟩ := Table.nodup_names_extend h entry.2
      have hfirst : addFile e (entry.1, .string entry.2) =
          .ok { e with registry := e.registry.extend [(entry.1, entry.2)] } := by
        simp only [addFile, register, Table.put_of_not_mem hnew]
      have hrest := ih (e := { e with registry := e.registry.extend [(entry.1, entry.2)] }) h
      rw [Table.extend_extend] at hrest
      rw [List.map_cons, List.foldlM_cons, hfirst]
      exact hrest

/-- The document of an environment describes that environment. -/
theorem ofDocument_toDocument {e : Environment} (h : e.WellFormed) :
    ofDocument e.toDocument = .ok e := by
  have hparameters : Document.entries e.toDocument .parameters = .ok e.parameters.entries := rfl
  have hregistry : Document.entries e.toDocument .resourceRegistry =
      .ok (e.registry.map Value.string).entries := rfl
  have hvalues := foldlM_addValue (e := {}) h.parameters
  have hfiles := foldlM_addFile (e := { parameters := e.parameters }) h.registry
  simp only [ofDocument, hparameters, hregistry, bind, Except.bind, hvalues]
  exact hfiles

end Environment

end RolePlan
