import RolePlan.Proofs.Table
import RolePlan.Template.Read

/-!
# The grammar of templates

`isTemplate` says which documents describe a template, without reading them. What such a document
holds is said by `contents`, and what is wrong with any other by `faults`, in the order in which a
reader comes upon it. A document has no fault exactly if it keeps to the grammar.
-/

namespace RolePlan.Grammar

/-! ## Forms of values -/

def isText : Value → Bool
  | .string _ => true
  | _ => false

def isScalar : Value → Bool
  | .string _ => true
  | .int _ => true
  | .float _ => true
  | .bool _ => true
  | _ => false

def isTruth : Value → Bool
  | .bool _ => true
  | _ => false

def isListOf (form : Value → Bool) : Value → Bool
  | .list items => items.all form
  | _ => false

def isMappingOf (form : Value → Bool) : Value → Bool
  | .object fields => fields.entries.all fun entry => form entry.2
  | _ => false

/-- A mapping that is judged as a whole. -/
def isRecord (form : Table Value → Bool) : Value → Bool
  | .object fields => form fields
  | _ => false

/-- The value of a field, unless it is missing or null. -/
def given (fields : Table Value) (name : String) : Option Value :=
  match fields.find? name with
  | none | some .null => none
  | some v => some v

def allows (fields : Table Value) (name : String) (form : Value → Bool) : Bool :=
  (given fields name).all form

def demands (fields : Table Value) (name : String) (form : Value → Bool) : Bool :=
  (fields.find? name).any form

/-! ## Which documents describe a template -/

def isConstraint : Value → Bool :=
  isRecord fun fields =>
    allows fields "description" isText && (fields.erase "description").size == 1

def isParameter : Value → Bool :=
  isRecord fun fields =>
    demands fields "type" isText && allows fields "description" isScalar &&
      allows fields "label" isScalar && allows fields "hidden" isTruth &&
      allows fields "constraints" (isListOf isConstraint)

def isGroup : Value → Bool :=
  isRecord fun fields =>
    demands fields "label" isScalar && allows fields "description" isScalar &&
      allows fields "parameters" (isListOf isScalar)

def isResource : Value → Bool :=
  isRecord fun fields =>
    demands fields "type" isScalar && allows fields "properties" (isMappingOf fun _ => true)

def isOutput : Value → Bool :=
  isRecord fun fields =>
    demands fields "value" (fun _ => true) && allows fields "description" isScalar

def isTemplate (document : Table Value) : Bool :=
  allows document "description" isScalar &&
    allows document "parameters" (isMappingOf isParameter) &&
    allows document "parameter_groups" (isListOf isGroup) &&
    allows document "resources" (isMappingOf isResource) &&
    allows document "outputs" (isMappingOf isOutput)

/-! ## What a document holds -/

def fieldsOf (v : Value) : Table Value := v.object?.getD .empty

def textIn (fields : Table Value) (name : String) : Option String :=
  (given fields name).bind Value.scalarText?

def truthIn (fields : Table Value) (name : String) : Option Bool :=
  match given fields name with
  | some (.bool b) => some b
  | _ => none

def listIn (fields : Table Value) (name : String) : List Value :=
  match given fields name with
  | some (.list items) => items
  | _ => []

def mappingIn (fields : Table Value) (name : String) : Table Value :=
  match given fields name with
  | some (.object entries) => entries
  | _ => .empty

def constraintOf (v : Value) : Constraint :=
  let (type, definition) := ((fieldsOf v).erase "description").entries.headD ("", .null)
  { type, definition, description := textIn (fieldsOf v) "description" }

def parameterOf (v : Value) : Parameter :=
  let fields := fieldsOf v
  { type := (textIn fields "type").getD ""
    description := textIn fields "description"
    label := textIn fields "label"
    default := given fields "default"
    hidden := truthIn fields "hidden"
    constraints := (listIn fields "constraints").map constraintOf }

def addMember (g : ParameterGroup) (v : Value) : ParameterGroup := g.add (v.scalarText?.getD "")

def groupOf (v : Value) : ParameterGroup :=
  let fields := fieldsOf v
  (listIn fields "parameters").foldl addMember
    { label := (textIn fields "label").getD "", description := textIn fields "description" }

def resourceOf (v : Value) : Resource :=
  let fields := fieldsOf v
  { type := (textIn fields "type").getD ""
    metadata := given fields "metadata"
    dependsOn := given fields "depends_on"
    updatePolicy := given fields "update_policy"
    deletionPolicy := given fields "deletion_policy"
    properties := (mappingIn fields "properties").map .plain }

def outputOf (v : Value) : Output :=
  { value := ((fieldsOf v).find? "value").getD .null
    description := textIn (fieldsOf v) "description" }

/-- Everything in the document that belongs to a template, entry by entry. -/
def contents (document : Table Value) : Template where
  version := (textIn document "heat_template_version").getD "2014-10-16"
  description := textIn document "description"
  parameters := (mappingIn document "parameters").map parameterOf
  groups := (listIn document "parameter_groups").map groupOf
  resources := (mappingIn document "resources").map resourceOf
  outputs := (mappingIn document "outputs").map outputOf

/-! ## What is wrong with a document -/

def unfit (fields : Table Value) (name : String) (form : Value → Bool) (fault : Kind → Error) :
    List Error :=
  match given fields name with
  | none => []
  | some v => if form v then [] else [fault v.kind]

def recordFaults (which : Section) (name : String) (faults : Table Value → List Error) :
    Value → List Error
  | .object fields => faults fields
  | other => [.invalidField which name "<entry>" (.shape .mapping other.kind)]

def absent (which : Section) (name : String) (fields : Table Value) (field : String) : List Error :=
  match given fields field with
  | none => [.missingField which name field]
  | some _ => []

def unfitText (which : Section) (name : String) (fields : Table Value) (field : String) :
    List Error :=
  unfit fields field isScalar fun kind => .invalidField which name field (.shape .string kind)

def demandedText (which : Section) (name : String) (fields : Table Value) (field : String) :
    List Error :=
  unfitText which name fields field ++ absent which name fields field

def constraintFaults (parameter : String) : Value → List Error
  | .object fields =>
      unfit fields "description" isText
          (fun kind => .constraint parameter (.descriptionShape kind)) ++
        if (fields.erase "description").size = 1 then []
        else [.constraint parameter (.typeCount (fields.eraseBySwap "description").names)]
  | other => [.constraint parameter (.notMapping other.kind)]

/-- Null is no type, and neither is a number. -/
def typeFaults (name : String) (fields : Table Value) : List Error :=
  match fields.find? "type" with
  | none => [.missingField .parameters name "type"]
  | some v =>
      if isText v then [] else [.invalidField .parameters name "type" (.shape .string v.kind)]

def parameterFaults (name : String) : Value → List Error :=
  recordFaults .parameters name fun fields => List.flatten [
    typeFaults name fields,
    unfitText .parameters name fields "description",
    unfitText .parameters name fields "label",
    unfit fields "hidden" isTruth fun kind =>
      .invalidField .parameters name "hidden" (.shape .boolean kind),
    unfit fields "constraints" (isListOf fun _ => true) fun kind =>
      .invalidField .parameters name "constraints" (.shape .list kind),
    (listIn fields "constraints").flatMap (constraintFaults name)]

def memberFaults (name : String) (v : Value) : List Error :=
  if isScalar v then []
  else [.invalidField .parameterGroups name "parameters" (.memberNotScalar v.kind)]

def groupFaults (name : String) : Value → List Error :=
  recordFaults .parameterGroups name fun fields => List.flatten [
    demandedText .parameterGroups name fields "label",
    unfitText .parameterGroups name fields "description",
    unfit fields "parameters" (isListOf fun _ => true) fun kind =>
      .invalidField .parameterGroups name "parameters" (.shape .list kind),
    (listIn fields "parameters").flatMap (memberFaults name)]

def resourceFaults (id : String) : Value → List Error :=
  recordFaults .resources id fun fields => List.flatten [
    demandedText .resources id fields "type",
    unfit fields "properties" (isMappingOf fun _ => true) fun kind =>
      .invalidField .resources id "properties" (.shape .mapping kind)]

def outputFaults (name : String) : Value → List Error :=
  recordFaults .outputs name fun fields => List.flatten [
    if demands fields "value" (fun _ => true) then [] else [.missingField .outputs name "value"],
    unfitText .outputs name fields "description"]

def sectionFaults (document : Table Value) (which : Section)
    (faults : String → Value → List Error) : List Error :=
  unfit document which.name (isMappingOf fun _ => true)
      (fun kind => .document (.sectionShape which .mapping kind)) ++
    (mappingIn document which.name).entries.flatMap fun entry => faults entry.1 entry.2

/-- Like any list, the groups are known by their places. -/
def groupsFaults (document : Table Value) : List Error :=
  unfit document "parameter_groups" (isListOf fun _ => true)
      (fun kind => .document (.sectionShape .parameterGroups .list kind)) ++
    (listIn document "parameter_groups").zipIdx.flatMap fun item =>
      groupFaults ("#" ++ toString item.2) item.1

/-- The faults of a document, in the order in which a reader comes upon them. -/
def faults (document : Table Value) : List Error :=
  List.flatten [
    unfitText .template "<root>" document "description",
    sectionFaults document .parameters parameterFaults,
    groupsFaults document,
    sectionFaults document .resources resourceFaults,
    sectionFaults document .outputs outputFaults]

/-! ## No fault -/

variable {fields : Table Value} {name : String} {form : Value → Bool}

theorem unfit_eq_nil_iff {fault : Kind → Error} :
    unfit fields name form fault = [] ↔ allows fields name form = true := by
  rw [unfit, allows]
  cases given fields name with
  | none => simp
  | some v => simp

theorem unfitText_eq_nil_iff {which : Section} {entry : String} :
    unfitText which entry fields name = [] ↔ allows fields name isScalar = true :=
  unfit_eq_nil_iff

/-- A text that must be there is neither in another form nor missing. -/
theorem demandedText_eq_nil_iff {which : Section} {entry : String} :
    demandedText which entry fields name = [] ↔ demands fields name isScalar = true := by
  rw [demandedText, List.append_eq_nil_iff, unfitText_eq_nil_iff, absent, allows, given, demands]
  cases fields.find? name with
  | none => simp
  | some v => cases v <;> simp [isScalar]

theorem allows_isListOf_iff (form : Value → Bool) :
    allows fields name (isListOf form) = true ↔
      allows fields name (isListOf fun _ => true) = true ∧
        ∀ v ∈ listIn fields name, form v = true := by
  rw [allows, allows, listIn]
  cases given fields name with
  | none => simp
  | some v => cases v <;> simp [isListOf]

theorem allows_isMappingOf_iff (form : Value → Bool) :
    allows fields name (isMappingOf form) = true ↔
      allows fields name (isMappingOf fun _ => true) = true ∧
        ∀ entry ∈ (mappingIn fields name).entries, form entry.2 = true := by
  rw [allows, allows, mappingIn]
  cases given fields name with
  | none => simp
  | some v => cases v <;> simp [isMappingOf]

theorem recordFaults_eq_nil_iff {which : Section} {faults : Table Value → List Error}
    {form : Table Value → Bool} (h : ∀ fields, faults fields = [] ↔ form fields = true)
    (v : Value) : recordFaults which name faults v = [] ↔ isRecord form v = true := by
  cases v with
  | object fields => exact h fields
  | _ => simp [recordFaults, isRecord]

theorem constraintFaults_eq_nil_iff (parameter : String) (v : Value) :
    constraintFaults parameter v = [] ↔ isConstraint v = true := by
  cases v with
  | object fields =>
      rw [constraintFaults, List.append_eq_nil_iff, unfit_eq_nil_iff, isConstraint, isRecord,
        Bool.and_eq_true, beq_iff_eq]
      simp
  | _ => simp [constraintFaults, isConstraint, isRecord]

theorem typeFaults_eq_nil_iff :
    typeFaults name fields = [] ↔ demands fields "type" isText = true := by
  rw [typeFaults, demands]
  cases fields.find? "type" with
  | none => simp
  | some v => simp

theorem parameterFaults_eq_nil_iff (name : String) (v : Value) :
    parameterFaults name v = [] ↔ isParameter v = true := by
  refine recordFaults_eq_nil_iff (fun fields => ?_) v
  simp only [List.flatten_cons, List.flatten_nil, List.append_nil, List.append_eq_nil_iff,
    typeFaults_eq_nil_iff, unfitText_eq_nil_iff, unfit_eq_nil_iff, List.flatMap_eq_nil_iff,
    constraintFaults_eq_nil_iff, Bool.and_eq_true, and_assoc,
    allows_isListOf_iff isConstraint]

theorem memberFaults_eq_nil_iff (v : Value) : memberFaults name v = [] ↔ isScalar v = true := by
  rw [memberFaults]
  simp

theorem groupFaults_eq_nil_iff (name : String) (v : Value) :
    groupFaults name v = [] ↔ isGroup v = true := by
  refine recordFaults_eq_nil_iff (fun fields => ?_) v
  simp only [List.flatten_cons, List.flatten_nil, List.append_nil, List.append_eq_nil_iff,
    demandedText_eq_nil_iff, unfitText_eq_nil_iff, unfit_eq_nil_iff, List.flatMap_eq_nil_iff,
    memberFaults_eq_nil_iff, Bool.and_eq_true, and_assoc, allows_isListOf_iff isScalar]

theorem resourceFaults_eq_nil_iff (id : String) (v : Value) :
    resourceFaults id v = [] ↔ isResource v = true := by
  refine recordFaults_eq_nil_iff (fun fields => ?_) v
  simp only [List.flatten_cons, List.flatten_nil, List.append_nil, List.append_eq_nil_iff,
    demandedText_eq_nil_iff, unfit_eq_nil_iff, Bool.and_eq_true]

theorem outputFaults_eq_nil_iff (name : String) (v : Value) :
    outputFaults name v = [] ↔ isOutput v = true := by
  refine recordFaults_eq_nil_iff (fun fields => ?_) v
  simp [unfitText_eq_nil_iff]

theorem sectionFaults_eq_nil_iff {document : Table Value} {which : Section}
    {faults : String → Value → List Error} (h : ∀ name v, faults name v = [] ↔ form v = true) :
    sectionFaults document which faults = [] ↔
      allows document which.name (isMappingOf form) = true := by
  rw [sectionFaults, List.append_eq_nil_iff, unfit_eq_nil_iff, List.flatMap_eq_nil_iff,
    allows_isMappingOf_iff form]
  simp only [h]

theorem groupsFaults_eq_nil_iff {document : Table Value} :
    groupsFaults document = [] ↔ allows document "parameter_groups" (isListOf isGroup) = true := by
  rw [groupsFaults, List.append_eq_nil_iff, unfit_eq_nil_iff, List.flatMap_eq_nil_iff,
    allows_isListOf_iff isGroup]
  simp only [groupFaults_eq_nil_iff]
  refine and_congr_right fun _ => ?_
  conv_rhs => rw [← List.zipIdx_map_fst 0 (listIn document "parameter_groups")]
  rw [List.forall_mem_map]

/-- A document has no fault exactly if it keeps to the grammar. -/
theorem faults_eq_nil_iff (document : Table Value) :
    faults document = [] ↔ isTemplate document = true := by
  simp only [faults, List.flatten_cons, List.flatten_nil, List.append_nil, List.append_eq_nil_iff,
    unfitText_eq_nil_iff, sectionFaults_eq_nil_iff parameterFaults_eq_nil_iff,
    groupsFaults_eq_nil_iff, sectionFaults_eq_nil_iff resourceFaults_eq_nil_iff,
    sectionFaults_eq_nil_iff outputFaults_eq_nil_iff, isTemplate, Bool.and_eq_true, and_assoc,
    Section.name]

end RolePlan.Grammar
