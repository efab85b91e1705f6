import RolePlan.Proofs.Parsed

/-!
# Templates that survive being stored

A template is read back from its own text in its expanded form, and that form has the same text.
Just two things do not survive: a setting of null, which reads like none, and a constraint whose
type is the word for its description. Templates that are made by adding parts to an empty one meet
what this asks of their tables.
-/

namespace RolePlan

/-- The resource was given its settings, and then its properties one after another. -/
inductive Resource.Built : Resource → Prop where
  | new (type : String) {metadata dependsOn updatePolicy deletionPolicy : Option Value}
      (hmetadata : ∀ v ∈ metadata, v.WellFormed) (hdependsOn : ∀ v ∈ dependsOn, v.WellFormed)
      (hupdate : ∀ v ∈ updatePolicy, v.WellFormed)
      (hdeletion : ∀ v ∈ deletionPolicy, v.WellFormed) :
      Built { type, metadata, dependsOn, updatePolicy, deletionPolicy }
  | plain {r : Resource} (hr : Built r) (name : String) {v : Value} (hv : v.WellFormed) :
      Built (r.setProperty name (.plain v))
  | nested {r member : Resource} (hr : Built r) (hmember : Built member) (name id : String) :
      Built (r.setProperty name (.nested id member))

/-- The group was given its label, and then its members one after another. -/
inductive ParameterGroup.Built : ParameterGroup → Prop where
  | new (label : String) (description : Option String) : Built { label, description }
  | add {g : ParameterGroup} (hg : Built g) (name : String) : Built (g.add name)

/-- The template was made by adding parts to an empty one. -/
inductive Template.Built : Template → Prop where
  | new (version : String) (description : Option String) : Built { version, description }
  | addParameter {t u : Template} (ht : Built t) {name : String} {p : Parameter}
      (hp : p.WellFormed) (h : t.addParameter name p = .ok u) : Built u
  | addGroup {t : Template} (ht : Built t) {g : ParameterGroup} (hg : g.Built) :
      Built (t.addGroup g)
  | addResource {t u : Template} (ht : Built t) {id : String} {r : Resource} (hr : r.Built)
      (h : t.addResource id r = .ok u) : Built u
  | addOutput {t u : Template} (ht : Built t) {name : String} {o : Output}
      (ho : o.value.WellFormed) (h : t.addOutput name o = .ok u) : Built u

theorem Resource.Built.wellFormed {r : Resource} (h : r.Built) : r.WellFormed := by
  induction h with
  | new type hmetadata hdependsOn hupdate hdeletion =>
      exact ⟨hmetadata, hdependsOn, hupdate, hdeletion, List.nodup_nil, by simp⟩
  | plain _ name hv ih => exact ih.setProperty name hv
  | nested _ _ name id ih ihmember => exact ih.setProperty name ihmember.toValue

theorem ParameterGroup.Built.nodup {g : ParameterGroup} (h : g.Built) : g.parameters.Nodup := by
  induction h with
  | new label description => exact List.nodup_nil
  | add _ name ih => exact nodup_add ih name

namespace Template

theorem Built.wellFormed {t : Template} (h : t.Built) : t.WellFormed := by
  induction h with
  | new version description => exact wellFormed_new version description
  | addParameter _ hp h ih => exact ih.addParameter hp h
  | addGroup _ hg ih => exact ih.addGroup hg.nodup
  | addResource _ hr h ih => exact ih.addResource hr.wellFormed h
  | addOutput _ ho h ih => exact ih.addOutput ho h

theorem parse_compose {t : Template} (hwell : t.WellFormed) (hstorable : t.Storable)
    (hback : Yaml.GivesBack t.toDocument) : parse t.compose = .ok t.expand := by
  rw [parse, compose, Yaml.load_write hwell.toDocument hback]
  exact ofDocument_toDocument hwell hstorable

theorem compose_expand (t : Template) : t.expand.compose = t.compose := by
  rw [compose, compose, toDocument_expand]

/-- Expanding changes no setting that could get lost. -/
theorem Storable.of_expand {t : Template} (h : t.expand.Storable) : t.Storable := by
  refine ⟨h.ofParameters, fun entry he => ?_⟩
  have hentry := h.ofResources (entry.1, entry.2.expand) (List.mem_map.mpr ⟨entry, he, rfl⟩)
  exact ⟨hentry.metadata, hentry.dependsOn, hentry.updatePolicy, hentry.deletionPolicy⟩

/-- A template is read back from its text in its expanded form, which has the same text, exactly if
it holds none of the settings that get lost. -/
theorem parse_compose_iff {t : Template} (hwell : t.WellFormed)
    (hback : Yaml.GivesBack t.toDocument) :
    (parse t.compose = .ok t.expand ∧ t.expand.compose = t.compose) ↔ t.Storable := by
  constructor
  · -- Whatever is read can be stored, so that what cannot be is never read back.
    rintro ⟨hparse, -⟩
    exact (loaded_of_parse hparse).storable.of_expand
  · intro hstorable
    exact ⟨parse_compose hwell hstorable hback, compose_expand t⟩

/-- A template with resources inside of each other and with nulls that are kept. -/
def nestedTemplate : Template :=
  let inner : Resource := { type := "C", metadata := some .null }
  let middle : Resource := { type := "B", properties := ⟨[("c", .nested "c" inner)]⟩ }
  { parameters := ⟨[("p", {
      type := "t"
      constraints := [{ type := "r", definition := .null, description := some "d" }] })]⟩
    resources := ⟨[("a", { type := "A", properties := ⟨[("b", .nested "b" middle)]⟩ })]⟩ }

def nestedTemplateLines : List String :=
  ["heat_template_version: 2014-10-16",
    "parameters:",
    "  p:",
    "    type: t",
    "    constraints:",
    "    - r: null",
    "      description: d",
    "resources:",
    "  a:",
    "    type: A",
    "    properties:",
    "      b:",
    "        type: B",
    "        properties:",
    "          c:",
    "            type: C",
    "            metadata: null"]

theorem built_nestedTemplate : nestedTemplate.Built := by
  have hparameter : ({
      type := "t"
      constraints := [{ type := "r", definition := .null, description := some "d" }]
      } : Parameter).WellFormed :=
    ⟨by simp, by simp [Value.WellFormed]⟩
  have hinner : ({ type := "C", metadata := some .null } : Resource).Built :=
    .new "C" (by simp [Value.WellFormed]) (by simp) (by simp) (by simp)
  have hplain (type : String) : ({ type } : Resource).Built :=
    .new type (by simp) (by simp) (by simp) (by simp)
  have houter := (hplain "A").nested ((hplain "B").nested hinner "c" "c") "b" "b"
  exact .addResource (.addParameter (.new "2014-10-16" none) hparameter rfl) houter rfl

theorem givesBack_nestedTemplate : Yaml.GivesBack nestedTemplate.toDocument := by
  have hwrite : Yaml.write nestedTemplate.toDocument =
      String.ofList (Yaml.ofLines nestedTemplateLines) := by decide +kernel
  refine Yaml.givesBack_of_write hwrite ?_
  rw [Yaml.readsAs, Yaml.Tree.read, Yaml.Token.scan, String.toList_ofList]
  decide +kernel

theorem parse_compose_iff_nestedTemplate :
    nestedTemplate.WellFormed ∧ Yaml.GivesBack nestedTemplate.toDocument ∧
      parse nestedTemplate.compose = .ok nestedTemplate.expand ∧
      nestedTemplate.expand.compose = nestedTemplate.compose := by
  have hwell := built_nestedTemplate.wellFormed
  have hstorable : nestedTemplate.Storable :=
    ⟨List.forall_mem_singleton.mpr ⟨by simp, by simp⟩,
      List.forall_mem_singleton.mpr ⟨by simp, by simp, by simp, by simp⟩⟩
  exact ⟨hwell, givesBack_nestedTemplate,
    (parse_compose_iff hwell givesBack_nestedTemplate).mpr hstorable⟩

end Template

theorem Environment.parse_compose {e : Environment} (hwell : e.WellFormed)
    (hback : Yaml.GivesBack e.toDocument) : parse e.compose = .ok e := by
  rw [parse, compose, Yaml.load_write hwell.toDocument hback]
  exact ofDocument_toDocument hwell

end RolePlan
