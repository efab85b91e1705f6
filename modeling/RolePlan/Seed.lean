import RolePlan.Template.Write
import RolePlan.Environment
import RolePlan.Text.Lowercase

/-!
# Seeds

A seed is a template that surrounds the roles of a plan. Its groups with a member of a registered
role type stand for roles; all else in it is top-level and is copied into the plan. Texts that name
a role are replaced by the id that the role has in the plan.
-/

namespace RolePlan

namespace Value

/-- The parameter that a value looks up: `get_param` with a name, or with a list that begins with
one. -/
def lookedUp? (v : Value) : Option String :=
  match v with
  | .object ⟨[("get_param", .string name)]⟩ => some name
  | .object ⟨[("get_param", .list (.string name :: _))]⟩ => some name
  | _ => none

mutual

/-- Changes every text in the tree; names of fields stay. -/
def mapTexts (f : String → String) : Value → Value
  | .string text => .string (f text)
  | .list items => .list (mapTextsItems f items)
  | .object ⟨entries⟩ => .object ⟨mapTextsEntries f entries⟩
  | .null => .null
  | .bool b => .bool b
  | .int n => .int n
  | .float x => .float x

def mapTextsItems (f : String → String) : List Value → List Value
  | [] => []
  | v :: rest => mapTexts f v :: mapTextsItems f rest

def mapTextsEntries (f : String → String) : List (String × Value) → List (String × Value)
  | [] => []
  | (name, v) :: rest => (name, mapTexts f v) :: mapTextsEntries f rest

end

mutual

def countTexts (test : String → Bool) : Value → Nat
  | .string text => if test text then 1 else 0
  | .list items => countTextsItems test items
  | .object ⟨entries⟩ => countTextsEntries test entries
  | .null => 0
  | .bool _ => 0
  | .int _ => 0
  | .float _ => 0

def countTextsItems (test : String → Bool) : List Value → Nat
  | [] => 0
  | v :: rest => countTexts test v + countTextsItems test rest

def countTextsEntries (test : String → Bool) : List (String × Value) → Nat
  | [] => 0
  | (_, v) :: rest => countTexts test v + countTextsEntries test rest

end

end Value

namespace Resource

mutual

/-- Changes every text in the values of the properties, those of inline resources included. -/
def mapTexts (f : String → String) : Resource → Resource
  | ⟨type, metadata, dependsOn, updatePolicy, deletionPolicy, ⟨properties⟩⟩ =>
      ⟨type, metadata, dependsOn, updatePolicy, deletionPolicy,
        ⟨mapTextsProperties f properties⟩⟩

def mapTextsProperty (f : String → String) : PropertyValue → PropertyValue
  | .plain value => .plain (value.mapTexts f)
  | .nested id resource => .nested id (mapTexts f resource)

def mapTextsProperties (f : String → String) :
    List (String × PropertyValue) → List (String × PropertyValue)
  | [] => []
  | (name, property) :: rest => (name, mapTextsProperty f property) :: mapTextsProperties f rest

end

mutual

def countTexts (test : String → Bool) : Resource → Nat
  | ⟨_, _, _, _, _, ⟨properties⟩⟩ => countTextsProperties test properties

def countTextsProperty (test : String → Bool) : PropertyValue → Nat
  | .plain value => value.countTexts test
  | .nested _ resource => countTexts test resource

def countTextsProperties (test : String → Bool) : List (String × PropertyValue) → Nat
  | [] => 0
  | (_, property) :: rest => countTextsProperty test property + countTextsProperties test rest

end

def memberType? (r : Resource) : Option String :=
  match r.properties.find? definitionName with
  | some (.nested _ member) => some member.type
  | some (.plain definition) => (definition.field? "type").bind Value.string?
  | none => none

/-- The resource is a group whose member has a registered role type. -/
def isRole (r : Resource) : Bool :=
  groupTypes.contains r.type &&
    r.memberType?.any fun type => Namespace.aliasMark.toList.isPrefixOf type.toList

def memberProperties (r : Resource) : Table Value :=
  match r.properties.find? definitionName with
  | some (.nested _ member) => member.properties.map propertyValue
  | some (.plain definition) => ((definition.field? "properties").bind Value.object?).getD .empty
  | none => .empty

def plain? : PropertyValue → Option Value
  | .plain value => some value
  | .nested .. => none

/-- The parameters that a role looks up directly in its properties or in those of its member. -/
def roleLookups (r : Resource) : List String :=
  (r.properties.entries.filterMap fun entry => (plain? entry.2).bind Value.lookedUp?) ++
    r.memberProperties.entries.filterMap fun entry => entry.2.lookedUp?

end Resource

namespace Seed

def roles (seed : Template) : List (String × Resource) :=
  seed.resources.entries.filter (·.2.isRole)

def roleParameters (seed : Template) : List String :=
  (roles seed).flatMap (·.2.roleLookups)

def addResource (t : Template) (entry : String × Resource) : Except Error Template :=
  if entry.2.isRole || t.resources.contains entry.1 then .ok t else t.addResource entry.1 entry.2

def addResources (seed t : Template) : Except Error Template :=
  seed.resources.entries.foldlM addResource t

def addOutput (t : Template) (entry : String × Output) : Except Error Template :=
  if t.outputs.contains entry.1 then .ok t else t.addOutput entry.1 entry.2

def addOutputs (seed t : Template) : Except Error Template :=
  seed.outputs.entries.foldlM addOutput t

def addParameter (excluded : List String) (target : Template × Environment)
    (entry : String × Parameter) : Except Error (Template × Environment) :=
  let (t, e) := target
  if excluded.contains entry.1 || t.parameters.contains entry.1 then .ok target
  else do
    let t ← t.addParameter entry.1 entry.2
    if e.parameters.contains entry.1 then return (t, e)
    return (t, ← e.addParameter entry.1 entry.2.initialValue)

/-- Copies the parameters that no role looks up and whose names are not taken. Where the
environment has no value for a copied parameter, it gets one. -/
def addParameters (seed t : Template) (e : Environment) :
    Except Error (Template × Environment) :=
  seed.parameters.entries.foldlM (addParameter (roleParameters seed)) (t, e)

/-- The resources whose ids equal a role's name ignoring case. -/
def candidates (seed : Template) (role : String) : List (String × Resource) :=
  seed.resources.entries.filter fun entry => Text.sameIgnoringCase entry.1 role

/-- The values that a seed fixes for a role: the properties of its member that look up no
parameter. None if the seed does not know the role. -/
def fixedProperties? (seed : Template) (role : String) : Except Error (Option (Table Value)) :=
  match candidates seed role with
  | [] => .ok none
  | [(_, resource)] =>
      .ok (some ⟨resource.memberProperties.entries.filter (·.2.lookedUp?.isNone)⟩)
  | several => .error (.ambiguous role (several.map (·.1)))

def findRole? (seed : Template) (role : String) : Option (String × Resource) :=
  (roles seed).find? fun entry => Text.sameIgnoringCase entry.1 role

def rename (role id text : String) : String :=
  if Text.sameIgnoringCase text role then id else text

def mapTopLevel (f : Resource → Resource) (t : Template) : Template :=
  { t with resources := t.resources.map fun r => if r.isRole then r else f r }

def countReferences (role : String) : List (String × Resource) → Nat
  | [] => 0
  | (_, r) :: rest =>
      (if r.isRole then 0 else r.countTexts fun text => Text.sameIgnoringCase text role) +
        countReferences role rest

/-- Replaces the texts that name a role in the properties of all other resources, and counts
them. -/
def updateReferences (t : Template) (role id : String) : Nat × Template :=
  (countReferences role t.resources.entries, mapTopLevel (Resource.mapTexts (rename role id)) t)

end Seed

end RolePlan
