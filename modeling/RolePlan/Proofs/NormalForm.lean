import RolePlan.Proofs.Stored

/-!
# Normal forms of documents

Reading forgets much of a text: tags, the kinds of keys and of scalars that stand for texts, fields
that are null, whatever has no place in the format, members that a group names twice. What is left
is a normal form. It is written so that the very same template or environment is read again, and
writing that one gives the same text.
-/

namespace RolePlan

namespace Environment

variable {e f : Environment}

theorem WellFormed.addValue (he : e.WellFormed) {entry : String × Value}
    (hv : entry.2.WellFormed) (h : e.addValue entry = .ok f) : f.WellFormed := by
  obtain ⟨hnew, rfl⟩ := eq_of_addParameter h
  exact ⟨he.parameters.extend hnew entry.2, he.registry, Table.forall_mem_extend he.values hv⟩

theorem WellFormed.addFile (he : e.WellFormed) {entry : String × Value}
    (h : e.addFile entry = .ok f) : f.WellFormed := by
  rw [Environment.addFile] at h
  split at h
  · cases h
    exact ⟨he.parameters, he.registry.put _ _, he.values⟩
  · cases h

theorem wellFormed_of_ofDocument {document : Table Value}
    (hdocument : (Value.object document).WellFormed) (h : ofDocument document = .ok e) :
    e.WellFormed := by
  have hs := Document.sound_of_object hdocument
  obtain ⟨values, hvalues, h⟩ := Proofs.bind_eq_ok h
  obtain ⟨filled, hfilled, h⟩ := Proofs.bind_eq_ok h
  obtain ⟨files, -, h⟩ := Proofs.bind_eq_ok h
  have hempty : ({} : Environment).WellFormed := ⟨List.nodup_nil, List.nodup_nil, by simp⟩
  have hsound := Document.sound_of_entries hs hvalues
  have hwell : filled.WellFormed := Proofs.foldlM_keeps
    (fun _ entry hentry hb _ hc => hb.addValue (hsound entry hentry) hc) hempty hfilled
  exact Proofs.foldlM_keeps (fun _ _ _ hb _ hc => hb.addFile hc) hwell h

/-- Whatever text an environment is read from, it is well-formed. -/
theorem wellFormed_of_parse {text : String} (h : parse text = .ok e) : e.WellFormed := by
  obtain ⟨document, hload, h⟩ := Proofs.bind_eq_ok h
  exact wellFormed_of_ofDocument (Yaml.wellFormed_of_load hload) h

end Environment

/-- A template that was read holds value trees only, so that there is nothing to expand. -/
theorem Template.Loaded.expand_eq_self {t : Template} (h : t.Loaded) : t.expand = t := by
  rw [expand, Table.map_eq_self fun entry he => Resource.expand_eq_self (h.plain entry he)]

/-- A template that was read from any text is read again from its own text as it is, and so is an
environment; an environment need not have been read from a text for that. -/
theorem reads_back :
    (∀ text t, Template.parse text = .ok t → Yaml.GivesBack t.toDocument →
      ∃ u, Template.parse t.compose = .ok u ∧ u = t ∧ u.compose = t.compose) ∧
    (∀ text e, Environment.parse text = .ok e → Yaml.GivesBack e.toDocument →
      ∃ f, Environment.parse e.compose = .ok f ∧ f = e ∧ f.compose = e.compose) ∧
    ∀ e : Environment, e.WellFormed → Yaml.GivesBack e.toDocument →
      ∃ f, Environment.parse e.compose = .ok f ∧ f = e ∧ f.compose = e.compose := by
  have henvironment : ∀ e : Environment, e.WellFormed → Yaml.GivesBack e.toDocument →
      ∃ f, Environment.parse e.compose = .ok f ∧ f = e ∧ f.compose = e.compose :=
    fun e hwell hback => ⟨e, Environment.parse_compose hwell hback, rfl, rfl⟩
  refine ⟨fun text t hparse hback => ?_, fun text e hparse hback => ?_, henvironment⟩
  · have hloaded := Template.loaded_of_parse hparse
    have hread := Template.parse_compose hloaded.wellFormed hloaded.storable hback
    rw [hloaded.expand_eq_self] at hread
    exact ⟨t, hread, rfl, rfl⟩
  · exact henvironment e (Environment.wellFormed_of_parse hparse) hback

/-- A text with much that is forgotten: a version, a label and keys that are no texts, tags, nulls,
an unknown section, an unknown field, and a member that comes twice. -/
def mixedLines : List String :=
  ["heat_template_version: 2014",
    "description: null",
    "extra: 1",
    "parameters:",
    "  1:",
    "    type: T",
    "    label: 7",
    "    colour: red",
    "    default: !Ref x",
    "  true:",
    "    type: T",
    "    hidden: null",
    "    default: !Tag",
    "      k: null",
    "parameter_groups:",
    "- label: 3",
    "  parameters:",
    "  - 1",
    "  - true",
    "  - 1"]

def mixedText : String := String.ofList (Yaml.ofLines mixedLines)

def mixedTemplate : Template where
  version := "2014"
  parameters := ⟨[
    ("1", { type := "T", label := some "7", default := some (.string "x") }),
    ("true", { type := "T", default := some (.single "k" .null) })]⟩
  groups := [{ label := "3", parameters := ["1", "true"] }]

def mixedTemplateLines : List String :=
  ["heat_template_version: '2014'",
    "parameters:",
    "  '1':",
    "    type: T",
    "    label: '7'",
    "    default: x",
    "  'true':",
    "    type: T",
    "    default:",
    "      k: null",
    "parameter_groups:",
    "- label: '3'",
    "  parameters:",
    "  - '1'",
    "  - 'true'",
    "resources: {}"]

theorem parse_mixedText : Template.parse mixedText = .ok mixedTemplate := by
  let text (s : String) : Yaml.Tree := .scalar (.string s)
  let null : Yaml.Tree := .scalar .null
  let one : Yaml.Tree := .mapping [(text "type", text "T"), (text "label", .scalar (.int 7)),
    (text "colour", text "red"), (text "default", .tagged "Ref" (text "x"))]
  let yes : Yaml.Tree := .mapping [(text "type", text "T"), (text "hidden", null),
    (text "default", .tagged "Tag" (.mapping [(text "k", null)]))]
  let group : Yaml.Tree := .mapping [(text "label", .scalar (.int 3)),
    (text "parameters", .sequence [.scalar (.int 1), .scalar (.bool true), .scalar (.int 1)])]
  have htree : Yaml.Tree.read mixedText = .ok (.mapping [
      (text "heat_template_version", .scalar (.int 2014)), (text "description", null),
      (text "extra", .scalar (.int 1)),
      (text "parameters", .mapping [(.scalar (.int 1), one), (.scalar (.bool true), yes)]),
      (text "parameter_groups", .sequence [group])]) := by
    refine Yaml.read_of_readsAs ?_
    rw [Yaml.readsAs, Yaml.Tree.read, Yaml.Token.scan, mixedText, String.toList_ofList]
    decide +kernel
  have hblank : Text.isBlank mixedText = false := Yaml.isBlank_ofLines (by decide)
  rw [Template.parse, Document.load, hblank, if_neg Bool.false_ne_true, Yaml.read, htree]
  rfl

theorem givesBack_mixedTemplate : Yaml.GivesBack mixedTemplate.toDocument := by
  have hwrite : Yaml.write mixedTemplate.toDocument =
      String.ofList (Yaml.ofLines mixedTemplateLines) := by decide +kernel
  refine Yaml.givesBack_of_write hwrite ?_
  rw [Yaml.readsAs, Yaml.Tree.read, Yaml.Token.scan, String.toList_ofList]
  decide +kernel

def mixedEnvironmentLines : List String :=
  ["seen: 1",
    "parameters:",
    "  p: !Ref null",
    "  1: true",
    "resource_registry:",
    "  2: b.yaml"]

def mixedEnvironmentText : String := String.ofList (Yaml.ofLines mixedEnvironmentLines)

def mixedEnvironment : Environment where
  parameters := ⟨[("p", .null), ("1", .bool true)]⟩
  registry := ⟨[("2", "b.yaml")]⟩

theorem parse_mixedEnvironmentText :
    Environment.parse mixedEnvironmentText = .ok mixedEnvironment := by
  let text (s : String) : Yaml.Tree := .scalar (.string s)
  have htree : Yaml.Tree.read mixedEnvironmentText = .ok (.mapping [
      (text "seen", .scalar (.int 1)),
      (text "parameters", .mapping [(text "p", .tagged "Ref" (.scalar .null)),
        (.scalar (.int 1), .scalar (.bool true))]),
      (text "resource_registry", .mapping [(.scalar (.int 2), text "b.yaml")])]) := by
    refine Yaml.read_of_readsAs ?_
    rw [Yaml.readsAs, Yaml.Tree.read, Yaml.Token.scan, mixedEnvironmentText, String.toList_ofList]
    decide +kernel
  have hblank : Text.isBlank mixedEnvironmentText = false := Yaml.isBlank_ofLines (by decide)
  rw [Environment.parse, Document.load, hblank, if_neg Bool.false_ne_true, Yaml.read, htree]
  rfl

theorem givesBack_mixedEnvironment : Yaml.GivesBack mixedEnvironment.toDocument := by
  have hwrite : Yaml.write mixedEnvironment.toDocument = String.ofList (Yaml.ofLines
      ["parameters:", "  p: null", "  '1': true", "resource_registry:", "  '2': b.yaml"]) := by
    decide +kernel
  refine Yaml.givesBack_of_write hwrite ?_
  rw [Yaml.readsAs, Yaml.Tree.read, Yaml.Token.scan, String.toList_ofList]
  decide +kernel

theorem reads_back_mixedText :
    (Template.parse mixedText = .ok mixedTemplate ∧ Yaml.GivesBack mixedTemplate.toDocument ∧
      ∃ u, Template.parse mixedTemplate.compose = .ok u ∧ u = mixedTemplate ∧
        u.compose = mixedTemplate.compose) ∧
    (Environment.parse mixedEnvironmentText = .ok mixedEnvironment ∧
      Yaml.GivesBack mixedEnvironment.toDocument ∧
      ∃ f, Environment.parse mixedEnvironment.compose = .ok f ∧ f = mixedEnvironment ∧
        f.compose = mixedEnvironment.compose) ∧
    mixedEnvironment.WellFormed ∧ ∃ f, Environment.parse mixedEnvironment.compose = .ok f ∧
      f = mixedEnvironment ∧ f.compose = mixedEnvironment.compose := by
  obtain ⟨htemplate, henvironment, hany⟩ := reads_back
  have hwell := Environment.wellFormed_of_parse parse_mixedEnvironmentText
  exact ⟨⟨parse_mixedText, givesBack_mixedTemplate,
      htemplate mixedText mixedTemplate parse_mixedText givesBack_mixedTemplate⟩,
    ⟨parse_mixedEnvironmentText, givesBack_mixedEnvironment,
      henvironment mixedEnvironmentText mixedEnvironment parse_mixedEnvironmentText
        givesBack_mixedEnvironment⟩,
    hwell, hany mixedEnvironment hwell givesBack_mixedEnvironment⟩

end RolePlan
